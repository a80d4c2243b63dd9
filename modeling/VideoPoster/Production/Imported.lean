import VideoPoster.Production.Pipeline
import VideoPoster.Production.Release

/-!
# Imported scenes
-/

namespace VideoPoster.Production
open Python Billing Tables Executor List Function Pipeline Plan Scene

variable {D : Deployment} {media : Media} {jobs : Jobs} {P P' : Pipeline} {plan : Plan}
  {imported : String → Option FrozenAsset} {frame : FrameSpec}

structure Plan.Validated (plan : Plan) : Prop where
  distinct : ∀ inventory ∈ plan.motionInventory, (inventory.items.map MotionItem.sceneId).Nodup
  known : ∀ inventory ∈ plan.motionInventory, ∀ item ∈ inventory.items,
    ∃ frame ∈ plan.episode.frames, frame.sceneId = item.sceneId
  test : ∀ inventory ∈ plan.motionInventory, ∀ item ∈ inventory.items,
    item.motionRequirement = "ARTICULATED" → item.evidenceMode = .str "TEST"

def Pipeline.start (plan : Plan) (imported : String → Option FrozenAsset) : Pipeline where
  run := plan.start
  imported := imported
  approvedHeroes _ := none
  qa _ := none
  clipPackets _ := none

/-- The histories of a pipeline. What the executor and the disk are like is open at every step. -/
inductive Pipeline.Reached (D : Deployment) (plan : Plan) (imported : String → Option FrozenAsset) :
    Pipeline → Prop
  | start : Reached D plan imported (start plan imported)
  | remediate {P : Pipeline} (jobs : Jobs) (sceneId : String) (finding : Dict) (before : Reached D plan imported P) :
      Reached D plan imported { P with run := (remediationJob D jobs P.run sceneId finding).1 }
  | release {P : Pipeline} (jobs : Jobs) (cost : Decimal) (endpoint : String) (before : Reached D plan imported P) :
      Reached D plan imported { P with run := (eligibleHeroJobs D jobs P.run cost endpoint).1 }
  | record {P : Pipeline} (media : Media) (jobs : Jobs) (call : Pipeline.VisualQa)
      (before : Reached D plan imported P) : Reached D plan imported (P.recordVisualQa D media jobs call).1

/-! ## What every history keeps -/

def HeroOf (D : Deployment) (R : ProductionRun) (sceneId : String) (hero : Job) : Prop :=
  R.activeImages sceneId ≠ none ∧ ∃ frame ∈ R.plan.episode.frames, frame.sceneId = sceneId ∧
    R.plan.wantsHero frame = true ∧ ∃ image cost endpoint, hero = heroJob D R.plan frame image cost endpoint

structure Pipeline.Inv (D : Deployment) (plan : Plan) (imported : String → Option FrozenAsset) (P : Pipeline) :
    Prop where
  planned : P.run.plan = plan
  imported : P.imported = imported
  run : RunInv P.run
  images : ∀ sceneId, P.run.activeImages sceneId = none ↔ plan.baseline sceneId = none
  heroes : ∀ sceneId hero, P.run.heroes sceneId = some hero → HeroOf D P.run sceneId hero
  clips : ∀ sceneId, P.approvedHeroes sceneId ≠ none → P.run.heroes sceneId ≠ none

theorem remediationJob_cases (jobs : Jobs) (R : ProductionRun) (sceneId : String) (finding : Dict) :
    (remediationJob D jobs R sceneId finding).1 = R ∨ R.activeImages sceneId ≠ none ∧ ∃ correction,
        (remediationJob D jobs R sceneId finding).1 = { R with
            corrections := update R.corrections sceneId (some correction)
            activeImages := update R.activeImages sceneId (some correction) } := by
  unfold remediationJob
  split
  · exact .inl rfl
  split
  · exact .inl rfl
  split
  · split <;> exact .inl rfl
  split
  · exact .inl rfl
  rename_i image active
  split
  · split
    · exact .inl rfl
    · refine .inr ⟨?_, _, rfl⟩
      rw [active]
      exact Option.some_ne_none _
  · exact .inl rfl

variable {R : ProductionRun}

theorem wantsHero_eq_false (wants : R.plan.wantsHero frame = false) :
    frame.hero = false ∧ R.plan.articulated frame.sceneId = none := by
  unfold wantsHero at wants
  simpa using wants

variable {cost : Decimal} {endpoint : String} {frames : List FrameSpec}

theorem releaseHeroes_heroes {R : ProductionRun} (known : ∀ frame ∈ frames, frame ∈ R.plan.episode.frames)
    (heroes : ∀ sceneId hero, R.heroes sceneId = some hero → HeroOf D R sceneId hero) : ∀ sceneId hero,
    (releaseHeroes D jobs cost endpoint frames R).1.heroes sceneId = some hero → HeroOf D R sceneId hero := by
  induction frames generalizing R with
  | nil => exact heroes
  | cons frame rest ih =>
    have later : ∀ frame ∈ rest, frame ∈ R.plan.episode.frames := fun frame member =>
      known frame (.tail _ member)
    simp only [releaseHeroes]
    split
    · exact ih later heroes
    rename_i wanted
    split
    · exact heroes
    split
    · exact heroes
    rename_i image active
    split
    · let released : ProductionRun :=
        { R with
          heroes := update R.heroes frame.sceneId
            (some (heroJob D R.plan frame image cost endpoint)) }
      refine @ih released later fun sceneId hero found => ?_
      dsimp only [released] at found
      by_cases same : sceneId = frame.sceneId
      · rw [same, update_self] at found
        cases found
        rw [same]
        refine ⟨by rw [active]; exact Option.some_ne_none _, frame, known frame mem_cons_self, rfl, ?_,
          image, cost, endpoint, rfl⟩
        by_contra unwanted
        obtain ⟨hero, selected⟩ := wantsHero_eq_false (Bool.not_eq_true _ ▸ unwanted)
        exact wanted (.inl ⟨hero, selected⟩)
      · rw [update_of_ne same] at found
        exact heroes sceneId hero found
    · exact ih later heroes

theorem releaseHeroes_keeps {R : ProductionRun} {sceneId : String}
    (released : R.heroes sceneId ≠ none) : (releaseHeroes D jobs cost endpoint frames R).1.heroes sceneId ≠ none := by
  induction frames generalizing R with
  | nil => exact released
  | cons frame rest ih =>
    simp only [releaseHeroes]
    split
    · exact ih released
    split
    · exact released
    split
    · exact released
    rename_i image active
    split
    · let after : ProductionRun :=
        { R with
          heroes := update R.heroes frame.sceneId
            (some (heroJob D R.plan frame image cost endpoint)) }
      refine @ih after ?_
      dsimp only [after]
      by_cases same : sceneId = frame.sceneId
      · rw [same, update_self]
        exact Option.some_ne_none _
      · rw [update_of_ne same]
        exact released
    · exact ih released

namespace Pipeline

theorem Inv.start (plan : Plan) (imported : String → Option FrozenAsset) :
    Inv D plan imported (start plan imported) where
  planned := rfl
  imported := rfl
  run := RunInv.start plan
  images _ := Iff.rfl
  heroes _ _ found := by cases found
  clips _ some_ := absurd rfl some_

theorem Inv.remediate (inv : Inv D plan imported P) (sceneId : String) (finding : Dict) :
    Inv D plan imported { P with run := (remediationJob D jobs P.run sceneId finding).1 } := by
  have kept := @RunInv.remediationJob D P.run inv.run jobs sceneId finding
  obtain same | ⟨active, correction, is⟩ := remediationJob_cases (D := D) jobs P.run sceneId finding
  · rw [same]
    exact inv
  · rw [is] at kept ⊢
    have images : ∀ other, update P.run.activeImages sceneId (some correction) other = none ↔
        P.run.activeImages other = none := by
      intro other
      by_cases same : other = sceneId
      · rw [same, update_self]
        exact ⟨fun none => absurd none (Option.some_ne_none _), fun none => absurd none active⟩
      · rw [update_of_ne same]
    refine ⟨inv.planned, inv.imported, kept, fun other => (images other).trans (inv.images other), ?_, inv.clips⟩
    intro other hero found
    obtain ⟨shown, hero⟩ := inv.heroes other hero found
    exact ⟨fun none => shown ((images other).mp none), hero⟩

theorem Inv.release {cost : Decimal} {endpoint : String} (inv : Inv D plan imported P) :
    Inv D plan imported { P with run := (eligibleHeroJobs D jobs P.run cost endpoint).1 } := by
  have kept := @RunInv.eligibleHeroJobs D P.run inv.run jobs cost endpoint
  revert kept
  unfold eligibleHeroJobs
  split
  · exact fun _ => inv
  split
  · exact fun _ => inv
  split
  · exact fun _ => inv
  · intro kept
    obtain ⟨heroes, is⟩ : ∃ heroes, (releaseHeroes D jobs cost endpoint P.run.plan.episode.frames P.run).1 =
      { P.run with heroes := heroes } := releaseHeroes_fst _ _
    have known := @releaseHeroes_heroes D jobs cost endpoint P.run.plan.episode.frames P.run
      (fun _ => id) inv.heroes
    have stays := fun sceneId released => @releaseHeroes_keeps D jobs cost endpoint P.run.plan.episode.frames P.run
      sceneId released
    rw [is] at kept known stays ⊢
    exact ⟨inv.planned, inv.imported, kept, inv.images, known, fun sceneId clip => stays sceneId (inv.clips sceneId clip)⟩

theorem writePacket_same (P : Pipeline) (job : Job) (packet : Option ClipPacket) :
    (P.writePacket D job packet).run = P.run ∧ (P.writePacket D job packet).imported = P.imported ∧
      (P.writePacket D job packet).approvedHeroes = P.approvedHeroes := by
  cases packet <;> exact ⟨rfl, rfl, rfl⟩

theorem promote_cases (media : Media) (jobs : Jobs) (job : Job) (call : VisualQa) :
    (P.promote D media jobs job call).1 = P ∨ job.category = .hero ∧ ∃ asset, (P.promote D media jobs job call).1 =
        { P with approvedHeroes := update P.approvedHeroes call.sceneId (some asset) } := by
  unfold promote
  split
  · split
    · exact .inl rfl
    · split
      · rename_i hero
        exact .inr ⟨hero, _, rfl⟩
      · exact .inl rfl
  · exact .inl rfl

variable {job : Job}

theorem admitVisualQa_eq_ok {call : VisualQa} {packet : Option ClipPacket} (is : P.admitVisualQa D
    media jobs call = .ok (job, packet)) : P.completedJobForResult D jobs call.sceneId call.resultSha256 = .ok job := by
  obtain ⟨⟨⟩, -, is⟩ := bind_eq_ok.mp is
  obtain ⟨other, found, is⟩ := bind_eq_ok.mp is
  obtain ⟨packet, -, is⟩ := bind_eq_ok.mp is
  cases is
  exact found

theorem recordVisualQa_cases (P : Pipeline) (media : Media) (jobs : Jobs) (call : VisualQa) :
    (P.recordVisualQa D media jobs call).1.run = P.run ∧ (P.recordVisualQa D media jobs call).1.imported =
    P.imported ∧ ((P.recordVisualQa D media jobs call).1.approvedHeroes = P.approvedHeroes ∨ ∃ job asset,
    P.completedJobForResult D jobs call.sceneId call.resultSha256 = .ok job ∧ job.category = .hero ∧ (P.recordVisualQa
    D media jobs call).1.approvedHeroes = update P.approvedHeroes call.sceneId (some asset)) := by
  unfold recordVisualQa
  split
  · exact ⟨rfl, rfl, .inl rfl⟩
  · rename_i job packet admitted
    obtain ⟨run, imported, heroes⟩ := writePacket_same (D := D) P job packet
    dsimp only
    split_ifs
    · exact ⟨run, imported, .inl heroes⟩
    · split
      · exact ⟨run, imported, .inl heroes⟩
      · rename_i jobs' _
        dsimp only
        obtain same | ⟨hero, asset, same⟩ :=
          @promote_cases D ((P.writePacket D job packet).writeReport D job call) media jobs' job call
        · rw [same]
          exact ⟨run, imported, .inl heroes⟩
        · rw [same]
          refine ⟨run, imported, .inr ⟨job, asset, admitVisualQa_eq_ok admitted, hero, ?_⟩⟩
          exact congrArg (update · call.sceneId (some asset)) heroes

theorem completedJobForResult_eq_ok {sceneId sha256 : String} (is : P.completedJobForResult
    D jobs sceneId sha256 = .ok job) : P.run.activeImages sceneId = some job ∨ P.run.heroes sceneId = some job := by
  unfold completedJobForResult at is
  dsimp only at is
  split at is
  · rename_i found
    cases is
    exact .inl (Option.eq_some_of_filter_eq_some found)
  · rename_i found
    cases is
    exact .inr (Option.eq_some_of_filter_eq_some found)
  · cases is

theorem Inv.record (inv : Inv D plan imported P) (media : Media) (jobs : Jobs) (call : VisualQa) :
    Inv D plan imported (P.recordVisualQa D media jobs call).1 := by
  obtain ⟨run, import_, heroes⟩ := recordVisualQa_cases (D := D) P media jobs call
  refine ⟨by rw [run]; exact inv.planned, import_.trans inv.imported, by rw [run]; exact inv.run,
    by rw [run]; exact inv.images, by rw [run]; exact inv.heroes, fun sceneId clip => ?_⟩
  rw [run]
  obtain same | ⟨job, asset, found, hero, same⟩ := heroes
  · rw [same] at clip
    exact inv.clips sceneId clip
  · rw [same] at clip
    by_cases here : sceneId = call.sceneId
    · obtain image | released := completedJobForResult_eq_ok found
      · have category := inv.run.category _ _ image
        rw [hero] at category
        split_ifs at category
      · rw [here, released]
        exact Option.some_ne_none _
    · rw [update_of_ne here] at clip
      exact inv.clips sceneId clip

theorem Reached.inv (reached : Reached D plan imported P) : Inv D plan imported P := by
  induction reached with
  | start => exact .start plan imported
  | remediate jobs sceneId finding _ ih => exact ih.remediate sceneId finding
  | release jobs cost endpoint _ ih => exact ih.release
  | record media jobs call _ ih => exact ih.record media jobs call

/-! ## The release of heroes -/

def isImported (P : Pipeline) (frame : FrameSpec) : Bool := (P.imported frame.sceneId).isSome

def NoImportedHero (P : Pipeline) : Prop :=
  ∀ frame ∈ P.run.plan.episode.frames, P.isImported frame = true → P.run.plan.wantsHero frame = false

def ReleaseUnaffected (D : Deployment) (jobs : Jobs) (P : Pipeline) (cost : Decimal) (endpoint : String) : Prop :=
  releaseHeroes D jobs cost endpoint P.run.plan.episode.frames P.run =
    releaseHeroes D jobs cost endpoint (P.run.plan.episode.frames.filter fun frame => !P.isImported frame) P.run

end Pipeline

theorem releaseHeroes_skips {skipped : FrameSpec → Bool}
    (unwanted : ∀ frame ∈ frames, skipped frame = true → R.plan.wantsHero frame = false) : releaseHeroes D
    jobs cost endpoint frames R = releaseHeroes D jobs cost endpoint (frames.filter fun frame => !skipped frame) R := by
  induction frames generalizing R with
  | nil => rfl
  | cons frame rest ih =>
    have later : ∀ frame ∈ rest, skipped frame = true → R.plan.wantsHero frame = false :=
      fun frame member => unwanted frame (.tail _ member)
    cases skip : skipped frame with
    | true =>
      obtain ⟨hero, selected⟩ := wantsHero_eq_false (unwanted frame mem_cons_self skip)
      rw [filter_cons_of_neg (by simp [skip]), ← ih later]
      conv_lhs => rw [releaseHeroes]
      exact if_pos (.inl ⟨hero, selected⟩)
    | false =>
      rw [filter_cons_of_pos (by simp [skip]), releaseHeroes, releaseHeroes]
      dsimp only
      rw [ih later]
      split
      · rfl
      split
      · rfl
      split
      · rfl
      split
      · rename_i image active approved
        let released : ProductionRun :=
          { R with
            heroes := update R.heroes frame.sceneId
              (some (heroJob D R.plan frame image cost endpoint)) }
        rw [@ih released later]
      · rfl

theorem releaseHeroes_stops (stopped : ∃
    frame ∈ frames, R.plan.wantsHero frame = true ∧ R.heroes frame.sceneId = none ∧ R.activeImages frame.sceneId = none)
    (others : ∀ frame ∈ frames, R.plan.wantsHero frame = true → R.heroes frame.sceneId = none → R.activeImages
    frame.sceneId = none) : ∃ error, releaseHeroes D jobs cost endpoint frames R = (R, .error error) := by
  induction frames with
  | nil =>
    obtain ⟨frame, member, -⟩ := stopped
    cases member
  | cons frame rest ih =>
    rw [releaseHeroes]
    dsimp only
    split
    · rename_i skip
      refine ih ?_ fun frame member => others frame (.tail _ member)
      obtain ⟨other, member, wants, unreleased, imageless⟩ := stopped
      obtain rfl | member := mem_cons.mp member
      · obtain ⟨hero, selected⟩ | released := skip
        · simp [wantsHero, hero, selected] at wants
        · exact absurd unreleased released
      · exact ⟨other, member, wants, unreleased, imageless⟩
    · rename_i wanted
      split
      · exact ⟨_, rfl⟩
      · have imageless : R.activeImages frame.sceneId = none := by
          refine others frame mem_cons_self ?_ ?_
          · by_contra unwanted
            exact wanted (.inl (wantsHero_eq_false (Bool.not_eq_true _ ▸ unwanted)))
          · by_contra released
            exact wanted (.inr released)
        rw [imageless]
        exact ⟨_, rfl⟩

/-! ## Approved scenes -/

theorem find?_reverse_of_nodup {α β : Type} [DecidableEq β] {key : α → β} {xs : List α} (distinct : (xs.map key).Nodup)
    (wanted : β) : xs.reverse.find? (fun x => key x = wanted) = xs.find? fun x => key x = wanted := by
  cases first : xs.find? fun x => key x = wanted with
  | none =>
    refine find?_eq_none.mpr fun x member => ?_
    exact find?_eq_none.mp first x (mem_reverse.mp member)
  | some x =>
    cases last : xs.reverse.find? fun x => key x = wanted with
    | none =>
      exact absurd (find?_some first)
        (find?_eq_none.mp last x (mem_reverse.mpr (mem_of_find?_eq_some first)))
    | some y =>
      have isFirst : key x = wanted := by simpa using find?_some first
      have isLast : key y = wanted := by simpa using find?_some last
      have member := mem_reverse.mp (mem_of_find?_eq_some last)
      rw [inj_on_of_nodup_map distinct member (mem_of_find?_eq_some first) (isLast.trans isFirst.symm)]

namespace Pipeline

theorem items_find? (validated : P.run.plan.Validated) (sceneId : String) :
    P.items.find? (fun item => item.sceneId = sceneId) = P.run.plan.selectedMotion sceneId := by
  unfold items selectedMotion
  cases has : P.run.plan.motionInventory with
  | none => rfl
  | some inventory => exact (find?_reverse_of_nodup (validated.distinct inventory has) sceneId).symm

/-- The image of a frame was approved: by its row, by a report of the visual QA, and with its bytes. -/
inductive ImageApproved (D : Deployment) (media : Media) (jobs : Jobs) (P : Pipeline) (frame : FrameSpec) : Prop
  | intro (job : Job) (row : Row) (report : QaReport) (source path : String)
      (active : P.run.activeImages frame.sceneId = some job) (found : jobs.find? (D.requestId job) = some row)
      (approved : approvedRow row = true) (result : row.result = some source)
      (sha256 : row.resultSha256 = some report.resultSha256) (reported : P.qa (D.requestId job) = some report)
      (binds : report.requestId = D.requestId job ∧ report.compilation = P.run.plan.episode.checksum ∧
        report.approved = true ∧ blank report.reviewer = false)
      (bytes : media.files source = .ok report.resultSha256)
      (copied : media.copied frame.sceneId report.resultSha256 source = .ok path)

/-- The clip of a frame was approved: by its row, and in this pipeline; an articulated one with its packet. -/
inductive ClipApproved (D : Deployment) (media : Media) (jobs : Jobs) (P : Pipeline) (frame : FrameSpec) : Prop
  | intro (job : Job) (clip : FrozenAsset) (released : P.run.heroes frame.sceneId = some job)
      (approved : approvedJob D jobs job = true) (remembered : P.approvedHeroes frame.sceneId = some clip)
      (passed : ∀ item ∈ P.run.plan.articulated frame.sceneId, P.clipPasses D media jobs item = true)

structure Approved (D : Deployment) (media : Media) (jobs : Jobs) (P : Pipeline) : Prop where
  image : ∀ frame ∈ P.run.plan.episode.frames, P.isImported frame = false → P.ImageApproved D media jobs frame
  clip : ∀ frame ∈ P.run.plan.episode.frames, P.isImported frame = false → P.run.plan.wantsHero frame = true →
    P.ClipApproved D media jobs frame
  sheet : ∀ assets, ∃ sheet, media.contactSheet assets = .ok sheet

def Slots (media : Media) (P : Pipeline) : Prop :=
  ∀ frame ∈ P.run.plan.episode.frames, 1 / 4 < media.seconds frame ∧
    (P.run.plan.wantsHero frame = true → media.seconds frame = 5)

structure Renders (D : Deployment) (media : Media) (jobs : Jobs) (P : Pipeline) : Prop where
  ready : P.renderReady D media jobs = true
  scenes : ∃ manifest scenes, P.approvedManifest D media jobs = .ok manifest ∧
    P.renderScenes D media jobs manifest = .ok scenes ∧
    List.Forall₂ (fun frame scene => P.approvedImage D media jobs frame = .ok scene.image ∧
      scene.seconds = media.seconds frame ∧ scene.clip = P.approvedHeroes frame.sceneId)
      P.run.plan.episode.frames scenes

def BlocksImported (plan : Plan) (imported : String → Option FrozenAsset) : Prop :=
  ∀ sceneId, sceneId ∈ plan.blockedScenes ↔ imported sceneId ≠ none

theorem Inv.image_eq_none_iff (inv : Inv D plan imported P) (blocked : BlocksImported plan imported)
    (member : frame ∈ plan.episode.frames) : P.run.activeImages frame.sceneId = none ↔ P.isImported frame = true := by
  rw [inv.images, isImported, inv.imported]
  have known : plan.frame? frame.sceneId ≠ none := by
    intro none
    exact absurd (decide_eq_true rfl) (find?_eq_none.mp none frame member)
  unfold baseline
  rw [Option.isSome_iff_ne_none, ← blocked frame.sceneId]
  split_ifs with is
  · exact ⟨fun _ => is, fun _ => rfl⟩
  · exact ⟨fun none => absurd (Option.map_eq_none_iff.mp none) known, fun there => absurd there is⟩

theorem Inv.hero (inv : Inv D plan imported P) (blocked : BlocksImported plan imported)
    (member : frame ∈ plan.episode.frames) (released : P.run.heroes frame.sceneId ≠ none) :
    P.isImported frame = false ∧ plan.wantsHero frame = true := by
  obtain ⟨hero, released⟩ := Option.ne_none_iff_exists'.mp released
  obtain ⟨shown, other, isFrame, same, wants, -⟩ := inv.heroes _ hero released
  rw [inv.planned] at isFrame wants
  have is : other = frame := inj_on_of_nodup_map plan.episode.distinct isFrame member same
  rw [is] at wants
  refine ⟨?_, wants⟩
  rw [← Bool.not_eq_true, ← inv.image_eq_none_iff blocked member]
  exact shown

variable {item : MotionItem}

theorem articulated_of_mem {plan : Plan} {inventory : MotionInventory} (validated : plan.Validated)
    (has : plan.motionInventory = some inventory) (member : item ∈ inventory.items)
    (requires : item.motionRequirement = "ARTICULATED") : plan.articulated item.sceneId = some item := by
  have selected : plan.selectedMotion item.sceneId = some item := by
    rw [selectedMotion, has, Option.bind_some]
    cases found : inventory.items.reverse.find? fun other => other.sceneId = item.sceneId with
    | none => exact absurd (find?_eq_none.mp found item (mem_reverse.mpr member)) (by simp)
    | some other =>
      have same : other.sceneId = item.sceneId := by simpa using find?_some found
      have isItem := mem_reverse.mp (mem_of_find?_eq_some found)
      rw [inj_on_of_nodup_map (validated.distinct inventory has) isItem member same]
  rw [articulated, selected]
  exact Option.filter_eq_some_iff.mpr ⟨rfl, decide_eq_true requires⟩

theorem articulated_eq_some {plan : Plan} {sceneId : String} (is : plan.articulated sceneId = some item) :
    plan.selectedMotion sceneId = some item ∧ item.motionRequirement = "ARTICULATED" := by
  unfold articulated at is
  simpa using Option.filter_eq_some_iff.mp is

theorem Inv.renderReady_iff (inv : Inv D plan imported P)
    (validated : plan.Validated) (blocked : BlocksImported plan imported) (approved : P.Approved D media jobs) :
    P.renderReady D media jobs = true ↔ plan.episode.mode ≠ .live ∧ plan.motionPasses = true ∧ P.NoImportedHero := by
  have planned := inv.planned
  have images : (plan.episode.frames.all fun frame =>
      (P.run.activeImages frame.sceneId).all (approvedJob D jobs)) = true := by
    refine all_eq_true.mpr fun frame member => ?_
    cases there : P.isImported frame with
    | true =>
      rw [(inv.image_eq_none_iff blocked member).mpr there]
      rfl
    | false =>
      obtain ⟨job, row, report, source, path, active, found, passed, -⟩ :=
        approved.image frame (by rw [planned]; exact member) there
      rw [active, Option.all_some, approvedJob, found, Option.any_some, passed]
  have heroes : (plan.episode.frames.all fun frame =>
      (P.run.heroes frame.sceneId).all (approvedJob D jobs)) = true := by
    refine all_eq_true.mpr fun frame member => ?_
    cases released : P.run.heroes frame.sceneId with
    | none => rfl
    | some hero =>
      obtain ⟨fresh, wants⟩ := inv.hero blocked member (by rw [released]; exact Option.some_ne_none _)
      obtain ⟨job, clip, here, passed, -⟩ :=
        approved.clip frame (by rw [planned]; exact member) fresh (by rw [planned]; exact wants)
      cases released.symm.trans here
      exact passed
  have wanted : (plan.episode.frames.all fun frame =>
      !plan.wantsHero frame || (P.run.heroes frame.sceneId).isSome) = true ↔ P.NoImportedHero := by
    rw [all_eq_true, NoImportedHero, planned]
    refine forall₂_congr fun frame member => ?_
    cases wants : plan.wantsHero frame with
    | false => simp
    | true =>
      cases there : P.isImported frame with
      | false =>
        obtain ⟨job, clip, here, -⟩ :=
          approved.clip frame (by rw [planned]; exact member) there (by rw [planned]; exact wants)
        simp [here]
      | true =>
        have none : P.run.heroes frame.sceneId = none := by
          by_contra released
          rw [(inv.hero blocked member released).1] at there
          cases there
        simp [none]
  have clips : P.NoImportedHero → (P.items.all fun item =>
      item.motionRequirement ≠ "ARTICULATED" || P.clipPasses D media jobs item) = true := by
    intro unblocked
    refine all_eq_true.mpr fun item member => ?_
    by_cases requires : item.motionRequirement = "ARTICULATED"
    · obtain ⟨inventory, has, member⟩ : ∃ inventory, plan.motionInventory = some inventory ∧ item ∈ inventory.items := by
        unfold items at member
        rw [planned] at member
        cases has : plan.motionInventory with
        | none =>
          rw [has] at member
          cases member
        | some inventory =>
          rw [has] at member
          exact ⟨inventory, rfl, member⟩
      obtain ⟨frame, isFrame, same⟩ := validated.known inventory has item member
      have articulated := articulated_of_mem validated has member requires
      rw [← same] at articulated
      have wants : plan.wantsHero frame = true := by simp [wantsHero, articulated]
      have fresh : P.isImported frame = false := by
        by_contra there
        have unwanted := unblocked frame (by rw [planned]; exact isFrame) (Bool.not_eq_false _ ▸ there)
        rw [planned, wants] at unwanted
        cases unwanted
      obtain ⟨job, clip, -, -, -, passed⟩ :=
        approved.clip frame (by rw [planned]; exact isFrame) fresh (by rw [planned]; exact wants)
      rw [passed item (by rw [planned]; exact articulated), Bool.or_true]
    · simp [requires]
  unfold renderReady ProductionRun.renderReady
  rw [planned]
  simp only [Bool.and_eq_true, images, heroes, wanted, and_true, decide_eq_true_iff]
  constructor
  · rintro ⟨⟨⟨live, passes⟩, unblocked⟩, -⟩
    exact ⟨live, passes, unblocked⟩
  · rintro ⟨live, passes, unblocked⟩
    exact ⟨⟨⟨live, passes⟩, unblocked⟩, clips unblocked⟩

/-! ## The scenes -/

theorem ImageApproved.approvedImage (approved : P.ImageApproved D media jobs frame)
    (fresh : P.imported frame.sceneId = none) : ∃ asset, P.approvedImage D media jobs frame = .ok asset := by
  obtain ⟨job, row, report, source, path, active, found, passed, result, sha256, reported, binds, bytes, copied⟩ :=
    approved
  have qa : row.qa = some true := by
    unfold approvedRow at passed
    unfold Row.qa
    cases review : row.review with
    | none => simp [review] at passed
    | some review' => simp_all
  have completed : P.completedJobForResult D jobs frame.sceneId report.resultSha256 = .ok job := by
    unfold completedJobForResult
    dsimp only
    rw [active, Option.filter_some, if_pos (by simp [found, sha256])]
  have promoted : P.promoteCandidate D media jobs frame.sceneId report.resultSha256 report.reviewer =
      .ok ⟨path, report.resultSha256, report.reviewer, P.run.plan.episode.mode⟩ := by
    unfold promoteCandidate
    rw [completed]
    simp [found, result, bytes, copied, binds, require, bind, Except.bind, pure, Except.pure]
  refine ⟨⟨path, report.resultSha256, report.reviewer, P.run.plan.episode.mode⟩, ?_⟩
  unfold Pipeline.approvedImage
  rw [fresh, active]
  dsimp only
  rw [found]
  dsimp only
  rw [reported, sha256]
  simp [qa, binds, promoted, require, bind, Except.bind]

variable {β α : Type}

theorem mapM_ok (f : α → Result β) (xs : List α) (all : ∀ x ∈ xs, ∃ y, f x = .ok y) :
    ∃ ys, xs.mapM f = .ok ys ∧ List.Forall₂ (fun x y => f x = .ok y) xs ys := by
  induction xs with
  | nil => exact ⟨[], rfl, .nil⟩
  | cons x rest ih =>
    obtain ⟨y, first⟩ := all x mem_cons_self
    obtain ⟨ys, later, each⟩ := ih fun x member => all x (.tail _ member)
    refine ⟨y :: ys, ?_, .cons first each⟩
    rw [mapM_cons, first, later]
    rfl

variable {scene : Scene}

variable {image : FrozenAsset}

theorem Scene.make_eq_ok {seconds : ℚ} {clip : Option FrozenAsset} : make image
    seconds clip = .ok scene ↔ 1 / 4 < seconds ∧ (clip = none ∨ seconds = 5) ∧ scene = ⟨image, seconds, clip⟩ := by
  simp only [make, bind_eq_ok, require_eq_ok, pure_eq_ok]
  constructor
  · rintro ⟨⟨⟩, long, ⟨⟩, slot, rfl⟩
    exact ⟨long, slot, rfl⟩
  · rintro ⟨long, slot, rfl⟩
    exact ⟨(), long, (), slot, rfl⟩

theorem Inv.route (inv : Inv D plan imported P) (validated : plan.Validated) (member : frame ∈ plan.episode.frames) {job : Job} (articulated : plan.articulated frame.sceneId = some item)
    (released : P.run.heroes frame.sceneId = some job) :
    job.endpoint = item.endpoint ∧ job.payload.get "quality_first_motion" = some (expectedMotion item) := by
  obtain ⟨-, other, isFrame, same, -, image, cost, endpoint, rfl⟩ := inv.heroes _ job released
  rw [inv.planned] at isFrame ⊢
  have is : other = frame := inj_on_of_nodup_map plan.episode.distinct isFrame member same
  have test : item.evidenceMode = .str "TEST" := by
    obtain ⟨selected, requires⟩ := articulated_eq_some articulated
    unfold selectedMotion at selected
    obtain ⟨inventory, has, found⟩ := Option.bind_eq_some_iff.mp selected
    exact validated.test inventory has item (mem_reverse.mp (mem_of_find?_eq_some found)) requires
  rw [is]
  refine ⟨?_, ?_⟩
  · unfold heroJob
    rw [articulated]
    rfl
  · unfold heroJob heroPayload expectedMotion
    rw [articulated, ← test]
    rfl

theorem Inv.sceneOf_eq_ok (inv : Inv D plan imported P) (validated : plan.Validated) (approved : P.Approved D media
    jobs) (unblocked : P.NoImportedHero) (member : frame ∈ plan.episode.frames) (image : FrozenAsset) : P.sceneOf media
    frame image = .ok scene ↔ make image (media.seconds frame) (P.approvedHeroes frame.sceneId) = .ok scene := by
  have planned := inv.planned
  have isFrame : frame ∈ P.run.plan.episode.frames := by
    rw [planned]
    exact member
  have clip : plan.wantsHero frame = true → P.ClipApproved D media jobs frame := by
    intro wants
    refine approved.clip frame isFrame ?_ (by rw [planned]; exact wants)
    by_contra there
    have unwanted := unblocked frame isFrame (Bool.not_eq_false _ ▸ there)
    rw [planned, wants] at unwanted
    cases unwanted
  have selected : (P.items.find? fun item => item.sceneId = frame.sceneId).filter
      (fun item => item.motionRequirement = "ARTICULATED") = plan.articulated frame.sceneId := by
    rw [items_find? (by rw [planned]; exact validated), planned]
    rfl
  have remembered : ¬((frame.hero = true ∨ (plan.articulated frame.sceneId).isSome = true) ∧
      P.approvedHeroes frame.sceneId = none) := by
    rintro ⟨wants, none⟩
    obtain ⟨job, clip, -, -, there, -⟩ := clip (by simpa [wantsHero] using wants)
    rw [there] at none
    cases none
  have routed : ∀ item ∈ plan.articulated frame.sceneId, ((P.run.heroes frame.sceneId).any fun job =>
      decide (job.endpoint = item.endpoint ∧
        job.payload.get "quality_first_motion" = some (expectedMotion item))) = true := by
    intro item is
    have articulated : plan.articulated frame.sceneId = some item := is
    obtain ⟨job, clip, released, -⟩ := clip (by simp [wantsHero, articulated])
    rw [released]
    exact decide_eq_true (inv.route validated member articulated released)
  unfold sceneOf
  dsimp only
  rw [selected]
  simp only [bind_eq_ok, require_eq_ok]
  constructor
  · rintro ⟨⟨⟩, -, ⟨⟩, -, made⟩
    exact made
  · exact fun made => ⟨(), remembered, (), routed, made⟩

theorem sceneOf_eq (is : P.sceneOf media frame image = .ok scene) :
    scene = ⟨image, media.seconds frame, P.approvedHeroes frame.sceneId⟩ := by
  unfold sceneOf at is
  dsimp only at is
  simp only [bind_eq_ok, require_eq_ok] at is
  obtain ⟨⟨⟩, -, ⟨⟩, -, made⟩ := is
  exact (make_eq_ok.1 made).2.2

variable {xs : List α} {ys : List β}

theorem mapM_each {f : α → Result β} (is : xs.mapM f = .ok ys) : ∀ x ∈ xs, ∃ y, f x = .ok y := by
  induction xs generalizing ys with
  | nil => exact fun x member => by cases member
  | cons x rest ih =>
    rw [mapM_cons] at is
    obtain ⟨y, first, is⟩ := bind_eq_ok.mp is
    obtain ⟨ys, later, -⟩ := bind_eq_ok.mp is
    exact forall_mem_cons.mpr ⟨⟨y, first⟩, ih later⟩

theorem forall₂_of_zip {γ : Type} {A : α → β → Prop} {B : α × β → γ → Prop} {zs : List γ} (first : List.Forall₂ A xs ys)
    (second : List.Forall₂ B (xs.zip ys) zs) : List.Forall₂ (fun x z => ∃ y, A x y ∧ B (x, y) z) xs zs := by
  induction first generalizing zs with
  | nil =>
    cases second
    exact .nil
  | @cons x y xs ys here _ ih =>
    cases second with
    | cons made later => exact .cons ⟨y, here, made⟩ (ih later)

theorem Inv.renders_iff (inv : Inv D plan imported P) (validated : plan.Validated)
    (blocked : BlocksImported plan imported) (approved : P.Approved D media jobs) : P.Renders D media jobs ↔
    plan.episode.mode ≠ .live ∧ plan.motionPasses = true ∧ P.NoImportedHero ∧ P.Slots media := by
  have planned := inv.planned
  have ready := inv.renderReady_iff validated blocked approved
  constructor
  · intro renders
    obtain ⟨live, passes, unblocked⟩ := ready.mp renders.ready
    refine ⟨live, passes, unblocked, fun frame member => ?_⟩
    obtain ⟨manifest, scenes, -, rendered, -⟩ := renders.scenes
    obtain ⟨⟨⟩, -, rendered⟩ := bind_eq_ok.mp rendered
    obtain ⟨⟨⟩, -, rendered⟩ := bind_eq_ok.mp rendered
    obtain ⟨again, -, rendered⟩ := bind_eq_ok.mp rendered
    obtain ⟨⟨⟩, -, rendered⟩ := bind_eq_ok.mp rendered
    obtain ⟨⟨⟩, covers, rendered⟩ := bind_eq_ok.mp rendered
    have listed : frame ∈ (P.run.plan.episode.frames.zip manifest.assets).map Prod.fst := by
      rw [map_fst_zip (require_eq_ok.mp covers).ge]
      exact member
    obtain ⟨⟨frame, image⟩, paired, rfl⟩ := mem_map.mp listed
    obtain ⟨scene, made⟩ := mapM_each rendered _ paired
    rw [planned] at member
    rw [inv.sceneOf_eq_ok validated approved unblocked member, make_eq_ok] at made
    obtain ⟨long, slot, -⟩ := made
    refine ⟨long, fun wants => slot.resolve_left fun none => ?_⟩
    have isFrame : frame ∈ P.run.plan.episode.frames := by
      rw [planned]
      exact member
    have fresh : P.isImported frame = false := by
      by_contra there
      rw [unblocked frame isFrame (Bool.not_eq_false _ ▸ there)] at wants
      cases wants
    obtain ⟨job, clip, -, -, there, -⟩ := approved.clip frame isFrame fresh wants
    rw [there] at none
    cases none
  · rintro ⟨live, passes, unblocked, slots⟩
    have isReady := ready.mpr ⟨live, passes, unblocked⟩
    obtain ⟨assets, mapped, images⟩ := mapM_ok (P.approvedImage D media jobs) P.run.plan.episode.frames
      fun frame member => by
        cases there : P.imported frame.sceneId with
        | some asset =>
          refine ⟨asset, ?_⟩
          unfold approvedImage
          rw [there]
        | none =>
          exact (approved.image frame member (by rw [isImported, there]; rfl)).approvedImage there
    obtain ⟨sheet, drawn⟩ := approved.sheet assets
    obtain ⟨scenes, rendered, each⟩ := mapM_ok (fun pair => P.sceneOf media pair.1 pair.2)
      (P.run.plan.episode.frames.zip assets) fun pair member => by
        have isFrame := (of_mem_zip member).1
        obtain ⟨long, five⟩ := slots pair.1 isFrame
        rw [planned] at isFrame
        refine ⟨⟨pair.2, media.seconds pair.1, P.approvedHeroes pair.1.sceneId⟩, ?_⟩
        rw [inv.sceneOf_eq_ok validated approved unblocked isFrame, make_eq_ok]
        refine ⟨long, or_iff_not_imp_left.mpr fun clip => five ?_, rfl⟩
        rw [planned]
        exact (inv.hero blocked isFrame (inv.clips _ clip)).2
    have manifest : P.approvedManifest D media jobs = .ok ⟨assets, sheet, "compiled-qa", P.run.plan.episode.mode⟩ := by
      unfold approvedManifest
      rw [mapped]
      simp [drawn, bind, Except.bind, pure, Except.pure]
    refine ⟨isReady, _, scenes, manifest, ?_, ?_⟩
    · unfold renderScenes
      have motion : P.run.plan.motionPasses = true := by
        rw [planned]
        exact passes
      simp only [motion, isReady, manifest, require, if_true, bind, Except.bind]
      rw [if_pos images.length_eq.symm]
      exact rendered
    · refine (forall₂_of_zip images each).imp fun frame scene made => ?_
      obtain ⟨image, found, made⟩ := made
      cases sceneOf_eq made
      exact ⟨found, rfl, rfl⟩

theorem Inv.stops (inv : Inv D plan imported P) (blocked : BlocksImported plan imported)
    (approved : P.Approved D media jobs) (unwanted : ¬ P.NoImportedHero) (cost : Decimal) (endpoint : String) :
    ∃ error, releaseHeroes D jobs cost endpoint P.run.plan.episode.frames P.run = (P.run, .error error) := by
  have planned := inv.planned
  refine releaseHeroes_stops ?_ fun frame member wants unreleased => ?_
  · unfold NoImportedHero at unwanted
    push Not at unwanted
    obtain ⟨frame, member, there, wants⟩ := unwanted
    rw [planned] at member
    refine ⟨frame, by rw [planned]; exact member, Bool.not_eq_false _ ▸ wants, ?_,
      (inv.image_eq_none_iff blocked member).mpr there⟩
    by_contra released
    rw [(inv.hero blocked member released).1] at there
    cases there
  · rw [planned] at member
    rw [inv.image_eq_none_iff blocked member]
    by_contra fresh
    obtain ⟨job, clip, released, -⟩ :=
      approved.clip frame (by rw [planned]; exact member) (Bool.not_eq_true _ ▸ fresh) wants
    rw [released] at unreleased
    cases unreleased

/-- Imported scenes do not block the release of heroes, and once everything else is approved they do not
block the rendering, exactly if none of them wants a hero and the episode can be rendered at all. -/
theorem imported_scenes_never_block_iff (validated : plan.Validated)
    (blocked : BlocksImported plan imported) (reached : Reached D plan imported P) : (P.NoImportedHero →
    ∀ jobs cost endpoint, P.ReleaseUnaffected D jobs cost endpoint) ∧ ∀ media jobs, P.Approved D media jobs →
    (((∀ cost endpoint, P.ReleaseUnaffected D jobs cost endpoint) ∧ P.Renders D media jobs ↔ plan.episode.mode ≠ .live ∧
    plan.motionPasses = true ∧ P.NoImportedHero ∧ P.Slots media) ∧ (¬ P.NoImportedHero → ∀ cost endpoint,
    ∃ error, releaseHeroes D jobs cost endpoint P.run.plan.episode.frames P.run = (P.run, .error error))) := by
  have inv := reached.inv
  refine ⟨fun unblocked jobs cost endpoint => releaseHeroes_skips unblocked, fun media jobs approved => ⟨?_, fun unwanted => inv.stops blocked approved unwanted⟩⟩
  rw [inv.renders_iff validated blocked approved]
  exact ⟨fun both => both.2, fun renders => ⟨fun cost endpoint => releaseHeroes_skips renders.2.2.1, renders⟩⟩

end Pipeline

/-! ## An imported scene beside an approved one -/

def importingPlan (hero : Bool) : Plan :=
  { samplePlan with
    episode :=
      { episodeId := "episode-1"
        mode := .test
        frames := [⟨"R001", 0, 4, "a boat", "the boat leaves", hero⟩, ⟨"R002", 4, 8, "a shore", "it is empty", false⟩]
        checksum := "compilation"
        distinct := show ["R001", "R002"].Nodup by decide }
    blockedScenes := ["R001"] }

def sampleImported (sceneId : String) : Option FrozenAsset :=
  if sceneId = "R001" then some (sampleAsset "/in/R001.png") else none

def sampleMedia : Media where
  files _ := .ok "image"
  image _ := true
  clip _ _ _ _ := ⟨true, "clip", "", some 5⟩
  copied sceneId sha256 _ := .ok ("/approved/" ++ sceneId ++ "-" ++ sha256)
  contactSheet _ := .ok (sampleAsset "/work/contact_sheet.png")
  checksum _ := "manifest"
  lasts _ _ := true
  seconds frame := frame.stop - frame.start

def shoreJob : Job :=
  (importingPlan false).jobFor ⟨"R002", 4, 8, "a shore", "it is empty", false⟩ .first samplePlan.imageCost

def shoreJobs : Jobs :=
  Table.empty.put { Reservation.row samplePlanDeployment ⟨shoreJob, 1, "", "TEST_LOCAL_ONLY", none, none, none⟩ with
    status := .complete, result := some "/out/shore.png", resultSha256 := some "image" }

def shoreReview (hero : Bool) : Pipeline × Jobs × Result (Option FrozenAsset) :=
  (start (importingPlan hero) sampleImported).recordVisualQa samplePlanDeployment sampleMedia shoreJobs
    ⟨"R002", "image", true, "reviewer-1", none, some (some ⟨"reviewer-1", "studio"⟩)⟩

theorem importingPlan_validated (hero : Bool) : (importingPlan hero).Validated where
  distinct := by simp [importingPlan, samplePlan]
  known := by simp [importingPlan, samplePlan]
  test := by simp [importingPlan, samplePlan]

theorem importingPlan_blocks (hero : Bool) : Pipeline.BlocksImported (importingPlan hero) sampleImported := by
  intro sceneId
  simp [importingPlan, sampleImported]

def shoreRow : Row :=
  { Reservation.row samplePlanDeployment ⟨shoreJob, 1, "", "TEST_LOCAL_ONLY", none, none, none⟩ with
    status := .complete, result := some "/out/shore.png", resultSha256 := some "image"
    review := some ⟨true, "reviewer-1", ⟨"reviewer-1", "studio"⟩, none⟩ }

theorem shoreReview_rows (hero : Bool) : (shoreReview hero).2.1.find? sampleBaselineId = some shoreRow := by
  cases hero <;> decide

theorem shoreReview_report (hero : Bool) : (shoreReview hero).1.qa sampleBaselineId =
      some ⟨sampleBaselineId, "image", "compilation", true, "reviewer-1"⟩ := by
  cases hero <;> decide

theorem shoreReview_run (hero : Bool) :
    (shoreReview hero).1.run = (importingPlan hero).start ∧ (shoreReview hero).1.imported = sampleImported := by
  have same := recordVisualQa_cases (D := samplePlanDeployment)
    (start (importingPlan hero) sampleImported) sampleMedia shoreJobs
    ⟨"R002", "image", true, "reviewer-1", none, some (some ⟨"reviewer-1", "studio"⟩)⟩
  unfold shoreReview
  exact ⟨same.1, same.2.1⟩

theorem shoreReview_approved (hero : Bool) :
    (shoreReview hero).1.Approved samplePlanDeployment sampleMedia (shoreReview hero).2.1 := by
  obtain ⟨run, imports⟩ := shoreReview_run hero
  refine ⟨fun frame member fresh => ?_, fun frame member fresh wants => ?_, fun assets => ⟨_, rfl⟩⟩
  · rw [run] at member
    simp only [isImported, imports] at fresh
    obtain rfl | rfl : frame = _ ∨ frame = _ := by simpa [importingPlan, Plan.start] using member
    · cases fresh
    · have active : (importingPlan hero).start.activeImages "R002" = some shoreJob := by
        cases hero <;> decide
      have id : samplePlanDeployment.requestId shoreJob = sampleBaselineId := by decide
      refine .intro shoreJob shoreRow ⟨sampleBaselineId, "image", "compilation", true, "reviewer-1"⟩ "/out/shore.png"
        "/approved/R002-image" ?_ ?_ (by decide) rfl rfl ?_ ⟨?_, ?_, rfl, by decide⟩ rfl
        (by decide)
      · rw [run]
        exact active
      · rw [id]
        exact shoreReview_rows hero
      · rw [id]
        exact shoreReview_report hero
      · exact id.symm
      · rw [run]
        rfl
  · rw [run] at member wants
    simp only [isImported, imports] at fresh
    obtain rfl | rfl : frame = _ ∨ frame = _ := by simpa [importingPlan, Plan.start] using member
    · cases fresh
    · cases wants

theorem imported_scene_rendered :
    (shoreReview false).1.Renders samplePlanDeployment sampleMedia (shoreReview false).2.1 := by
  obtain ⟨run, imports⟩ := shoreReview_run false
  have reached : Pipeline.Reached samplePlanDeployment (importingPlan false) sampleImported (shoreReview false).1 :=
    .record _ _ _ .start
  have iff := (imported_scenes_never_block_iff (importingPlan_validated false) (importingPlan_blocks false)
    reached).2 sampleMedia _ (shoreReview_approved false)
  have frames : ∀ frame ∈ (shoreReview false).1.run.plan.episode.frames,
      (shoreReview false).1.run.plan.wantsHero frame = false ∧ 1 / 4 < frame.stop - frame.start := by
    rw [run]
    decide +kernel
  refine (iff.1.mpr ⟨by decide, rfl, fun frame member there => (frames frame member).1, fun frame member => ?_⟩).2
  refine ⟨(frames frame member).2, fun wants => ?_⟩
  rw [(frames frame member).1] at wants
  cases wants

theorem imported_hero_blocks : (shoreReview true).1.Approved samplePlanDeployment sampleMedia (shoreReview true).2.1 ∧
      (shoreReview true).1.renderReady samplePlanDeployment sampleMedia (shoreReview true).2.1 = false ∧
      (eligibleHeroJobs samplePlanDeployment (shoreReview true).2.1 (shoreReview true).1.run (.finite false 1 0)
        "seedance").2 = .error (.key "R001") :=
  ⟨shoreReview_approved true, by decide, by decide⟩

end VideoPoster.Production
