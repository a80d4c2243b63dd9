import VideoPoster.Harness.Walk

/-!
# A run makes moves and nothing else
-/

namespace VideoPoster.Harness
open Python Billing Interleaving Tables Program Control Option List RunMove

variable {L : Libraries} {oracle : Oracle} {pid : ℕ} {w w₀ w₁ w' : World} {control control' : Control}
  {name : StageName}

/-! ## What a program returns -/

def Returns {α : Type} (L : Libraries) (oracle : Oracle) (pid : ℕ) (Q : α → Prop) (program : Program α) : Prop :=
  ∀ w x w', Ends L oracle pid program w (.ok x) w' → Q x

section Returns
variable {α β : Type} {Q : α → Prop} {R : β → Prop} {program : Program α} {next : α → Program β}

theorem Returns.pure {x : α} (holds : Q x) : Returns L oracle pid Q (Pure.pure x : Program α) := by
  intro w y w' ends
  obtain ⟨same, -⟩ := Prog.ends_pure_iff.mp ends
  cases same
  exact holds

theorem Returns.bind (first : Returns L oracle pid Q program)
    (rest : ∀ x, Q x → Returns L oracle pid R (next x)) : Returns L oracle pid R (program >>= next) := by
  intro w y w' ends
  obtain ⟨x, w₁, head, after⟩ := Prog.ends_bind_iff.mp ends
  exact rest x (first w x w₁ head) w₁ y w' after

theorem Returns.after (rest : ∀ x, Returns L oracle pid R (next x)) : Returns L oracle pid R (program >>= next) := by
  have any : Returns L oracle pid (fun _ => True) program := fun _ _ _ _ => trivial
  exact any.bind fun x _ => rest x

end Returns

/-! ## Operations -/

def Act.Within (control : Control) (name : StageName) : Act → Prop
  | .look => True
  | .ask _ => True
  | .write path _ => (∃ parts, path = .revision control.plan.revision ("providers" :: parts)) ∨
      ∃ parts, path = control.file parts ∧ name.Places parts
  | _ => False

theorem Act.Still.within {action : Act} (still : action.Still) : action.Within control name := by
  cases action <;> trivial

def Placed (control : Control) (name : StageName) (paths : List Path) : Prop :=
  ∀ path ∈ paths, ∃ parts, path = control.file parts ∧ name.Places parts

theorem Placed.append {left right : List Path} (first : Placed control name left)
    (second : Placed control name right) : Placed control name (left ++ right) := by
  intro path member
  rcases mem_append.mp member with before | after
  · exact first path before
  · exact second path after

theorem Placed.files {files : List (List String)} (owned : ∀ parts ∈ files, name.Places parts) :
    Placed control name (files.map control.file) := by
  intro path member
  obtain ⟨parts, listed, rfl⟩ := mem_map.mp member
  exact ⟨parts, rfl, owned parts listed⟩

variable {directory : List String}

theorem returns_list {wanted : Path → Bool} (owned : ∀ rest, name.Places (directory ++ rest)) :
    Returns L oracle pid (Placed control name) (list control directory wanted) := by
  refine Returns.after fun w => Returns.pure ?_
  intro path member
  have listed := (mem_filter.mp member).1
  simp only [below, Files.below, mem_filter] at listed
  obtain ⟨-, inside⟩ := listed
  cases path with
  | other name => cases inside
  | revision number parts =>
    simp only [Bool.and_eq_true, decide_eq_true_eq, isPrefixOf_iff_prefix] at inside
    obtain ⟨rfl, rest, rfl⟩ := inside
    exact ⟨directory ++ rest, rfl, owned rest⟩

section Only

variable {stage : StageName}

theorem only_produce {parts : List String} (owned : name.Places parts) :
    (produce control stage parts).Only (Act.Within control name) := by
  refine ⟨trivial, fun answer => ?_⟩
  refine only_ofResult.bind fun document => ?_
  exact ⟨.inr ⟨parts, rfl, owned⟩, fun _ => trivial⟩

theorem only_produceBelow (owned : ∀ rest, name.Places (directory ++ rest)) :
    (produceBelow control stage directory).Only (Act.Within control name) :=
  ⟨trivial, fun _ => only_each fun rest _ => only_produce (owned rest)⟩

theorem only_provide : (provide control stage).Only (Act.Within control name) :=
  ⟨trivial, fun _ => only_each fun file _ => ⟨.inl ⟨file.1, rfl⟩, fun _ => trivial⟩⟩

theorem only_freshness {paths : List Path} : (checkFreshness L control paths).Only (Act.Within control name) :=
  only_checkFreshness.mono fun _ still => still.within

theorem only_list {wanted : Path → Bool} :
    (list control directory wanted).Only (Act.Within control name) := ⟨trivial, fun _ => trivial⟩

theorem only_finish : (finish stage).Only (Act.Within control name) :=
  ⟨trivial, fun _ => only_ofResult⟩

theorem only_files {files : List (List String)} (owned : ∀ parts ∈ files, name.Places parts) :
    (each files (produce control stage)).Only (Act.Within control name) :=
  only_each fun parts listed => only_produce (owned parts listed)

end Only

structure Body (L : Libraries) (oracle : Oracle) (pid : ℕ) (control : Control) (name : StageName)
    (operation : Program (List Path)) : Prop where
  only : operation.Only (Act.Within control name)
  placed : Returns L oracle pid (Placed control name) operation

theorem body_script : Body L oracle pid control .script (scriptStage L control) where
  only := by
    unfold scriptStage
    refine (only_produceBelow fun _ => .inl rfl).bind fun _ => only_provide.bind fun _ => ?_
    refine (only_produce (by decide)).bind fun _ => only_freshness.bind fun _ => ?_
    refine (only_produce (by decide)).bind fun _ => (only_produce (by decide)).bind fun _ => ?_
    refine (only_files ?_).bind fun _ => only_list.bind fun _ => trivial
    cases control.plan.biblical <;> decide
  placed := by
    unfold scriptStage
    refine .after fun _ => .after fun _ => .after fun _ => .after fun _ => .after fun _ => .after fun _ => ?_
    refine .after fun _ => (returns_list fun _ => .inl rfl).bind fun research listed => .pure ?_
    have fixed : Placed control .script ([["script", "script.json"], ["qa", "script.json"],
        ["qa", "editorial_reports.json"]].map control.file) := Placed.files (by decide)
    refine (fixed.append listed).append (Placed.files ?_)
    cases control.plan.biblical <;> decide

theorem body_audio : Body L oracle pid control .audioStoryboard (audioStage L control) where
  only := by
    unfold audioStage
    refine only_provide.bind fun _ => (only_files (by decide)).bind fun _ => ?_
    exact only_freshness.bind fun _ => trivial
  placed := .after fun _ => .after fun _ => .after fun _ => .pure (Placed.files (by decide))

theorem body_postAudioContracts :
    Body L oracle pid control .postAudioContracts (postAudioContractsStage control) where
  only := (only_files (by decide)).bind fun _ => trivial
  placed := .after fun _ => .pure (Placed.files (by decide))

theorem body_images : Body L oracle pid control .images (imagesStage control) where
  only := by
    unfold imagesStage
    refine only_provide.bind fun _ => (only_produceBelow fun _ => .inl rfl).bind fun _ => ?_
    exact (only_files (by decide)).bind fun _ => only_list.bind fun _ => trivial
  placed := by
    unfold imagesStage
    refine .after fun _ => .after fun _ => .after fun _ => ?_
    refine (returns_list fun _ => .inl rfl).bind fun compiled listed => .pure ?_
    exact listed.append (Placed.files (by decide))

theorem body_motionPlan : Body L oracle pid control .motionPlan (motionPlanStage control) where
  only := (only_produce (by decide)).bind fun _ => trivial
  placed := .after fun _ => .pure
    (show Placed control .motionPlan ([["animation", "motion-plan.json"]].map control.file) from Placed.files (by decide))

theorem body_encode {encodeStarted : Bool} :
    Body L oracle pid control .encode (renderStage L control encodeStarted) where
  only := by
    refine .bind ?_ fun _ => trivial
    unfold encodeOnce
    cases encodeStarted with
    | true => exact ⟨trivial, fun _ => only_ofResult⟩
    | false =>
      refine (only_produce (by decide)).bind fun _ => only_freshness.bind fun _ => ?_
      exact only_produce (by decide)
  placed := .after fun _ => .pure
    (show Placed control .encode ([["renders", "final.mp4"], ["qa", "encode.json"]].map control.file) from
      Placed.files (by decide))

theorem body_sidecars : Body L oracle pid control .sidecars (sidecarsStage L control) where
  only := by
    unfold sidecarsStage
    refine (only_files (by decide)).bind fun _ => (only_produce (by decide)).bind fun _ => ?_
    refine only_freshness.bind fun _ => (only_produce (by decide)).bind fun _ => ?_
    exact only_list.bind fun _ => only_list.bind fun _ => only_list.bind fun _ => trivial
  placed := by
    unfold sidecarsStage
    refine .after fun _ => .after fun _ => .after fun _ => .after fun _ => ?_
    refine (returns_list fun _ => .inl rfl).bind fun subtitles first => ?_
    refine (returns_list fun _ => .inl rfl).bind fun metadata second => ?_
    refine (returns_list fun _ => .inl rfl).bind fun thumbnails third => .pure ?_
    exact (first.append second).append third

theorem body_finalQa : Body L oracle pid control .finalQa (finalStage control) where
  only := (only_produce (by decide)).bind fun _ => only_finish.bind fun _ => trivial
  placed := .after fun _ => .after fun _ => .pure
    (show Placed control .finalQa ([["qa", "final.json"]].map control.file) from Placed.files (by decide))

/-! ## `stage` -/

def Behaves (L : Libraries) (oracle : Oracle) (pid : ℕ) (w₀ : World) (control : Control) (name : StageName)
    (operation : Program (List Path)) : Prop :=
  ∀ w started, w.control = some started → started.Running name → started.plan = control.plan →
    Moves L .run w₀ w → Stays L oracle pid (Reached L .run w₀) operation w ∧
      ∀ paths w', Ends L oracle pid operation w (.ok paths) w' →
        w'.control = some started ∧ Moves L .run w₀ w' ∧ Placed control name paths

theorem Body.behaves {operation : Program (List Path)} (body : Body L oracle pid control name operation)
    (plain : name ≠ .heroes) : Behaves L oracle pid w₀ control name operation := by
  intro w started held running plan made
  have step : ∀ {w w₁ : World} {action : Act} {response : action.Res}, action.Within control name →
      (machine L).exec oracle pid w action = some (w₁, response) →
      (w.control = some started ∧ Moves L .run w₀ w) → w₁.control = some started ∧ Moves L .run w₀ w₁ := by
    rintro w w₁ action response within executed ⟨held, made⟩
    cases action with
    | look =>
      cases executed
      exact ⟨held, made⟩
    | ask query =>
      cases executed
      exact ⟨held, made⟩
    | write path document =>
      cases executed
      refine ⟨held, made.tail (.run ?_)⟩
      rcases within with ⟨parts, rfl⟩ | ⟨parts, rfl, owned⟩
      · rw [← plan]
        exact .provided held
      · have file : control.file parts = started.file parts := by simp only [file, plan]
        rw [file]
        exact .made held running owned fun same => absurd same plain
    | save _ => cases within
    | send _ _ _ => cases within
    | upload => cases within
  refine ⟨(body.only.stays step ⟨held, made⟩).mono fun _ _ reached => reached.2, ?_⟩
  intro paths w' ends
  obtain ⟨still, made'⟩ := body.only.ends step ⟨held, made⟩ ends
  exact ⟨still, made', body.placed w paths w' ends⟩

structure Control.Grows (control control' : Control) : Prop where
  plan : control'.plan = control.plan
  planHash : control'.planHash = control.planHash
  status : control'.status = control.status
  approvals : control'.approvals = control.approvals
  artifacts : control'.artifacts = control.artifacts
  planApproval : control'.planApproval = control.planApproval
  completed : ∀ name, control.Completed name → control'.Completed name

theorem Control.Grows.refl (control : Control) : control.Grows control :=
  ⟨rfl, rfl, rfl, rfl, rfl, rfl, fun _ => id⟩

theorem Control.Grows.trans {control'' : Control} (first : control.Grows control')
    (second : control'.Grows control'') : control.Grows control'' :=
  ⟨second.plan.trans first.plan, second.planHash.trans first.planHash, second.status.trans first.status,
    second.approvals.trans first.approvals, second.artifacts.trans first.artifacts,
    second.planApproval.trans first.planApproval, fun name done => second.completed name (first.completed name done)⟩

theorem Control.Grows.withStages {outputs : List Bound} :
    control.Grows ((control.withStage name { complete := false }).withStage name
      { complete := true, outputs := outputs }) := by
  refine ⟨rfl, rfl, rfl, rfl, rfl, rfl, ?_⟩
  rintro other ⟨receipt, found, complete⟩
  by_cases same : other = name
  · exact ⟨{ complete := true, outputs := outputs }, by simp [same], rfl⟩
  · exact ⟨receipt, by simp [same, found], complete⟩

theorem stays_stage {α : Type} {recoverable : Bool} {operation : Program (List Path)} {next : Control → Program α}
    (held : w.control = some control) (made : Moves L .run w₀ w) (production : name ∈ productionStages) (behaves :
    Behaves L oracle pid w₀ control name operation) (rest : ∀ control' w', w'.control = some control' → Moves L .run w₀
    w' → control.Grows control' → control'.Completed name → Stays L oracle pid (Reached L .run w₀) (next control') w') :
    Stays L oracle pid (Reached L .run w₀) (stage L control name recoverable operation >>= next) w := by
  unfold stage
  cases known : (control.stage? name).filter StageReceipt.complete with
  | some receipt =>
    obtain ⟨found, complete⟩ := filter_eq_some_iff.mp known
    exact rest control w held made (.refl control) ⟨receipt, found, complete⟩
  | none =>
    have idle : ¬ control.Completed name := by
      rintro ⟨receipt, found, complete⟩
      rw [found, filter_some, if_pos complete] at known
      cases known
    simp only [Prog.bind_eq, Prog.bind_assoc]
    refine stays_require (fun _ => made) fun _ => ?_
    refine stays_save (fun _ => made) ?_
    have started := made.tail (.run (.started held idle production))
    obtain ⟨stays, ended⟩ := behaves _ (control.withStage name { complete := false }) rfl
      ⟨{ complete := false }, by simp, rfl⟩ rfl started
    refine stays.bind fun paths w' ends => ?_
    obtain ⟨held', made', placed⟩ := ended paths w' ends
    refine stays_load (fun _ => made') fun found valid => ?_
    obtain rfl : control.withStage name { complete := false } = found :=
      some.inj (held'.symm.trans (loaded_control valid))
    refine stays_look (fun _ => made') ?_
    refine stays_ofResult (fun _ => made') fun outputs hashed => ?_
    refine stays_save (fun _ => made') ?_
    refine rest _ _ rfl (made'.tail (.run ?_)) .withStages ⟨{ complete := true, outputs := outputs }, by simp, rfl⟩
    exact .completed held' ⟨{ complete := false }, by simp, rfl⟩ production valid hashed placed

/-! ### The heroes -/

theorem behaves_heroes : Behaves L oracle pid w₀ control .heroes (heroesStage control) := by
  intro w started held running plan made
  have file : control.heroFile = started.heroFile := by simp only [heroFile, file, plan]
  have move {w' : World} {document : Document} (held : w'.control = some started)
      (allowed : control.plan.heroes = true ∨ w'.files.read? control.heroFile = none) :
      RunMove L w' (w'.write control.heroFile document) := by
    rw [file]
    rw [file, ← plan] at allowed
    exact .made held running (.inr ⟨rfl, rfl⟩) fun _ => allowed
  -- what holds of every world that the operation passes, if hero clips are made
  have step : control.plan.heroes = true → ∀ {w w₁ : World} {action : Act} {response : action.Res},
      action.Within control .heroes → (machine L).exec oracle pid w action = some (w₁, response) →
      (w.control = some started ∧ Moves L .run w₀ w) → w₁.control = some started ∧ Moves L .run w₀ w₁ := by
    rintro enabled w w₁ action response within executed ⟨held, made⟩
    cases action with
    | look =>
      cases executed
      exact ⟨held, made⟩
    | ask query =>
      cases executed
      exact ⟨held, made⟩
    | write path document =>
      cases executed
      refine ⟨held, made.tail (.run ?_)⟩
      rcases within with ⟨parts, rfl⟩ | ⟨parts, rfl, owned⟩
      · rw [← plan]
        exact .provided held
      · have file : control.file parts = started.file parts := by simp only [Control.file, plan]
        rw [file]
        exact .made held running owned fun _ => .inl (plan ▸ enabled)
    | save _ => cases within
    | send _ _ _ => cases within
    | upload => cases within
  have placed : Returns L oracle pid (Placed control .heroes) (heroesStage control) := by
    unfold heroesStage
    refine .after fun _ => .after fun _ => .after fun _ => .after fun _ => .after fun _ => .after fun _ => ?_
    exact .pure (show Placed control .heroes ([heroParts].map control.file) from Placed.files (by decide))
  let K : World → Option Act → Prop := fun w' _ => w'.control = some started ∧ Moves L .run w₀ w'
  have clips : ∀ w', w'.control = some started → Moves L .run w₀ w' → Stays L oracle pid K (do
      let manifests ← ask .heroManifests
      each (if control.plan.heroes then manifests else []) (write control.heroFile)
      each (if control.plan.heroes then [StageName.heroes] else []) (provide control)
      finish .heroes
      pure [control.heroFile]) w' := by
    intro w' held made
    refine stays_ask (fun _ => ⟨held, made⟩) ?_
    cases enabled : control.plan.heroes with
    | false =>
      show Stays L oracle pid K (finish .heroes >>= fun _ => pure [control.heroFile]) w'
      have still : (finish .heroes).Only Act.Still := ⟨trivial, fun _ => only_ofResult⟩
      exact stays_still still (fun _ => ⟨held, made⟩) fun _ _ => stays_pure fun _ => ⟨held, made⟩
    | true =>
      refine Prog.Only.stays (step enabled) (Prog.Only.bind ?_ fun _ => ?_) ⟨held, made⟩
      · exact only_each fun document _ => ⟨.inr ⟨heroParts, rfl, .inr ⟨rfl, rfl⟩⟩, fun _ => trivial⟩
      · exact (only_each fun _ _ => only_provide).bind fun _ => only_finish.bind fun _ => trivial
  have stays : Stays L oracle pid K (heroesStage control) w := by
    unfold heroesStage
    refine stays_look (fun _ => ⟨held, made⟩) ?_
    cases found : w.files.read? control.heroFile with
    | some document => exact clips w held made
    | none =>
      simp only [isNone_none, if_true, each, produce, Prog.bind_eq, Prog.bind_assoc]
      refine stays_ask (fun _ => ⟨held, made⟩) ?_
      refine stays_ofResult (fun _ => ⟨held, made⟩) fun document _ => ?_
      refine stays_write (fun _ => ⟨held, made⟩) ?_
      exact clips _ held (made.tail (.run (move held (.inr found))))
  refine ⟨stays.mono fun _ _ reached => reached.2, fun paths w' ends => ?_⟩
  obtain ⟨held', made'⟩ := stays w' none ends.stops
  exact ⟨held', made', placed w paths w' ends⟩

/-! ## Activation -/

theorem readDocument_eq_ok {files : Files} {path : Path} {missing : Error} {document : Document} :
    readDocument files path missing = .ok document ↔ files.read? path = some document := by
  unfold readDocument
  cases found : files.read? path <;> simp

theorem stays_activate {α : Type} {next : Unit → Program α} (held : w.control = some control) (made : Moves L .run w₀ w)
    (audio : control.Completed .audioStoryboard) (contracts : control.Completed .postAudioContracts)
    (rest : ∀ w', w'.control = some control → Moves L .run w₀ w' → Stays L oracle pid (Reached L .run w₀)
    (next ()) w') : Stays L oracle pid (Reached L .run w₀) (activate L control >>= next) w := by
  unfold activate
  simp only [produce, Prog.bind_eq, Prog.bind_assoc]
  refine stays_ask (fun _ => made) ?_
  refine stays_ofResult (fun _ => made) fun assets _ => ?_
  refine stays_still only_checkFreshness (fun _ => made) fun _ _ => ?_
  refine stays_ask (fun _ => made) ?_
  refine stays_ofResult (fun _ => made) fun document _ => ?_
  refine stays_write (fun _ => made) ?_
  have saved : Moves L .run w₀ (w.write (control.file ["state.json"]) document) := made.tail (.run (.state held))
  refine stays_look (fun _ => saved) ?_
  refine stays_ofResult (fun _ => saved) fun narration hashed => ?_
  refine stays_ofResult (fun _ => saved) fun storyboard told => ?_
  refine stays_ofResult (fun _ => saved) fun compiled known => ?_
  obtain ⟨bytes, heard, rfl⟩ := fileSha_eq_ok.1 hashed
  refine stays_write (fun _ => saved) ?_
  have compile := RunMove.compiled (w := w.write (control.file ["state.json"]) document) held audio contracts heard
    (readDocument_eq_ok.1 told) known
  exact rest _ held (saved.tail (.run compile))

/-! ## Delivery -/

variable {kind : Kind}

theorem ready_of_thumbnailApproved {artifact : Identity} {u : Unit} (passed : thumbnailApproved control kind = .ok u)
    (ready : kind = .video → control.status = .readyVideoDelivery)
    (others : kind ≠ .video → control.Ready artifact kind) : control.Ready artifact kind := by
  cases kind with
  | visualFreeze => exact others (by decide)
  | thumbnail => exact others (by decide)
  | video => exact ⟨ready rfl, passed⟩

theorem ready_withStage {other : Kind} {artifact : Identity} {receipt : StageReceipt}
    (ready : control.Ready artifact kind) : (control.withStage (.telegram other) receipt).Ready artifact kind := by
  cases kind with
  | visualFreeze => exact ready
  | thumbnail =>
    obtain ⟨status, done, approved⟩ := ready
    refine ⟨status, fun name production => ?_, approved⟩
    obtain ⟨found, stage, complete⟩ := done name production
    have different : name ≠ .telegram other := by
      rintro rfl
      cases other <;> exact absurd production (by decide)
    exact ⟨found, by rw [stage?_withStage, if_neg different, stage], complete⟩
  | video => exact ready

theorem stays_gate {kind : Kind} {artifact : Identity} (value : Delivered) {receipt : StageReceipt}
    (held : w.control = some control) (made : Moves L .run w₀ w) (active : control.Active)
    (frozen : control.artifacts.get kind = some artifact) (ready : control.Ready artifact kind)
    (found : control.stage? (.telegram kind) = some receipt)
    (intent : receipt.intent = some (deliveryIntent control kind artifact)) :
    Stays L oracle pid (Reached L .run w₀) (do
      ofResult (validateDelivery value (deliveryIntent control kind artifact))
      let later ← load L
      let w ← look
      let outputs ← ofResult (hashAll L w.files [later.telegramFile kind])
      let gated := later.withStage (.telegram kind)
        { complete := true, result := .delivered value, outputs := outputs
          intent := some (deliveryIntent control kind artifact) }
      save { gated with status := kind.gate }
      status L) w := by
  refine stays_ofResult (fun _ => made) fun _ _ => ?_
  refine stays_load (fun _ => made) fun later valid => ?_
  obtain rfl : control = later := some.inj (held.symm.trans (loaded_control valid))
  refine stays_look (fun _ => made) ?_
  refine stays_ofResult (fun _ => made) fun outputs hashed => ?_
  refine stays_save (fun _ => made) ?_
  exact stays_status (reached_step made (.run (.gated held active frozen ready found intent hashed)))

theorem stays_earlierDelivery {α : Type} {files : Files} {intent : DeliveryIntent} {previous : StageReceipt}
    {K : World → Option Act → Prop} {next : Delivered → Program α} (here : ∀ pending, K w pending)
    (rest : ∀ value, previous.intent = some intent → Stays L oracle pid K (next value) w) :
    Stays L oracle pid K (earlierDelivery files control intent previous >>= next) w := by
  unfold earlierDelivery
  simp only [Prog.bind_eq, Prog.bind_assoc]
  refine stays_require here fun same => ?_
  split_ifs with complete
  · exact stays_ofResult here fun value _ => rest value same
  · cases files.read? (control.telegramFile intent.kind) with
    | some document => exact stays_ofResult here fun value _ => rest value same
    | none => exact stays_raise here

theorem Control.stage?_withStage_self (control : Control) (name : StageName) (receipt : StageReceipt) :
    (control.withStage name receipt).stage? name = some receipt := by
  rw [stage?_withStage, if_pos rfl]

theorem stays_deliver (held : w.control = some control) (made : Moves L .run w₀ w)
    (active : control.Active) (due : kind = .video → control.status = .readyVideoDelivery)
    (ready : ∀ artifact, control.artifacts.get kind = some artifact → kind ≠ .video → control.Ready artifact kind) :
    Stays L oracle pid (Reached L .run w₀) (deliver L control kind) w := by
  unfold deliver
  refine stays_ofResult (fun _ => made) fun artifact found => ?_
  have frozen := artifact_eq_ok.1 found
  refine stays_look (fun _ => made) ?_
  refine stays_ofResult (fun _ => made) fun sha hashed => ?_
  refine stays_require (fun _ => made) fun same => ?_
  obtain ⟨bytes, there, hash⟩ := fileSha_eq_ok.1 hashed
  have current : (w.files.read? artifact.path).map L.sha256 = some artifact.sha256 := by
    rw [there, map_some, hash, same]
  refine stays_ofResult (fun _ => made) fun _ thumbnail => ?_
  have ready := ready_of_thumbnailApproved thumbnail due (ready artifact frozen)
  cases known : control.stage? (.telegram kind) with
  | some previous =>
    refine stays_earlierDelivery (fun _ => made) fun value intent => ?_
    exact stays_gate value held made active frozen ready known intent
  | none =>
    unfold sendDelivery
    simp only [Prog.bind_eq, Prog.bind_assoc]
    refine stays_require (fun _ => made) fun _ => ?_
    refine stays_ask (fun _ => made) ?_
    refine stays_ofResult (fun _ => made) fun _ _ => ?_
    refine stays_save (fun _ => made) ?_
    have intended := made.tail (.run (intended held frozen known))
    refine stays_send (fun _ => intended) ?_
    have sent := sent (L := L) (w := w.save (control.withStage (.telegram kind)
      { complete := false, intent := some (deliveryIntent control kind artifact) })) rfl frozen current
    rw [← current] at sent
    have reached := intended.tail (.run sent)
    refine stays_ofResult (fun _ => reached) fun messageId _ => ?_
    refine stays_ofResult (fun _ => reached) fun _ _ => ?_
    refine stays_write (fun _ => reached) ?_
    have stored := @RunMove.delivered L { w.save (control.withStage (.telegram kind)
        { complete := false, intent := some (deliveryIntent control kind artifact) }) with
      sent := ⟨control.plan.revision, kind, (w.files.read? artifact.path).map L.sha256⟩ :: w.sent } _ kind
      { toDeliveryIntent := deliveryIntent control kind artifact, messageId := messageId } rfl
      ⟨_, stage?_withStage_self _ _ _, rfl⟩
    have gate := @stays_gate L oracle pid _ w₀ (control.withStage (.telegram kind)
      { complete := false, intent := some (deliveryIntent control kind artifact) }) kind artifact
      { toDeliveryIntent := deliveryIntent control kind artifact, messageId := messageId } _ rfl
      (reached.tail (.run stored)) ⟨active.going, active.approved⟩ frozen (ready_withStage ready)
      (stage?_withStage_self _ _ _) rfl
    exact gate

/-! ## `run` -/

theorem Control.Active.grows (active : control.Active) (grows : control.Grows control') : control'.Active := by
  refine ⟨grows.status ▸ active.going, ?_⟩
  rw [grows.planApproval, grows.planHash]
  exact active.approved

theorem stays_finishMedia (held : w.control = some control) (made : Moves L .run w₀ w) (active : control.Active)
    (rendering : control.status ≠ .readyVideoDelivery) (sheet : control.approvals.visualFreeze.isSome = true)
    (script : control.Completed .script) (audio : control.Completed .audioStoryboard)
    (contracts : control.Completed .postAudioContracts) (images : control.Completed .images) :
    Stays L oracle pid (Reached L .run w₀) (finishMedia L control) w := by
  unfold finishMedia
  refine stays_stage held made (by decide) behaves_heroes fun c₁ w₁ held made grown heroes => ?_
  refine stays_stage held made (by decide) (body_motionPlan.behaves (by decide)) fun c₂ w₂ held made next motion => ?_
  have heroes := next.completed _ heroes
  have grown := grown.trans next
  refine stays_stage held made (by decide) (body_encode.behaves (by decide)) fun c₃ w₃ held made next encode => ?_
  have heroes := next.completed _ heroes
  have motion := next.completed _ motion
  have grown := grown.trans next
  refine stays_stage held made (by decide) (body_sidecars.behaves (by decide)) fun c₄ w₄ held made next sidecars => ?_
  have heroes := next.completed _ heroes
  have motion := next.completed _ motion
  have encode := next.completed _ encode
  have grown := grown.trans next
  refine stays_stage held made (by decide) (body_finalQa.behaves (by decide)) fun c₅ w₅ held made next final => ?_
  have done : ∀ name ∈ productionStages, c₅.Completed name := by
    have all := grown.trans next
    intro name member
    simp only [productionStages, mem_cons, not_mem_nil, or_false] at member
    rcases member with rfl | rfl | rfl | rfl | rfl | rfl | rfl | rfl | rfl
    · exact all.completed _ script
    · exact all.completed _ audio
    · exact all.completed _ contracts
    · exact all.completed _ images
    · exact next.completed _ heroes
    · exact next.completed _ motion
    · exact next.completed _ encode
    · exact next.completed _ sidecars
    · exact final
  have grown := grown.trans next
  have active := active.grows grown
  have ready (thumbnail : Identity) : c₅.Ready thumbnail .thumbnail :=
    ⟨grown.status ▸ rendering, done, grown.approvals ▸ sheet⟩
  refine stays_fresh (fun _ => made) fun thumbnail freshThumbnail => ?_
  refine stays_fresh (fun _ => made) fun video freshVideo => ?_
  refine stays_save (fun _ => made) ?_
  have frozen := made.tail (.run (.frozenMedia held active (ready thumbnail) freshThumbnail freshVideo))
  refine stays_deliver rfl frozen ⟨active.going, active.approved⟩ (fun same => by cases same) fun artifact _ _ => ?_
  exact ready artifact

theorem stays_produceMedia (held : w.control = some control) (made : Moves L .run w₀ w) (active : control.Active)
    (rendering : control.status ≠ .readyVideoDelivery) :
    Stays L oracle pid (Reached L .run w₀) (produceMedia L control) w := by
  unfold produceMedia
  refine stays_ask (fun _ => made) ?_
  refine stays_ofResult (fun _ => made) fun _ _ => ?_
  refine stays_stage held made (by decide) (body_script.behaves (by decide)) fun c₁ w₁ held made grown script => ?_
  refine stays_stage held made (by decide) (body_audio.behaves (by decide)) fun c₂ w₂ held made next audio => ?_
  have script := next.completed _ script
  have grown := grown.trans next
  refine stays_stage held made (by decide) (body_postAudioContracts.behaves (by decide))
    fun c₃ w₃ held made next contracts => ?_
  have script := next.completed _ script
  have audio := next.completed _ audio
  have grown := grown.trans next
  refine stays_activate held made audio contracts fun w₄ held made => ?_
  refine stays_stage held made (by decide) (body_images.behaves (by decide)) fun c₅ w₅ held made next images => ?_
  have grown := grown.trans next
  have active := active.grows grown
  have rendering : c₅.status ≠ .readyVideoDelivery := grown.status ▸ rendering
  refine stays_look (fun _ => made) ?_
  refine stays_ofResult (fun _ => made) fun manifest _ => ?_
  refine stays_still only_checkFreshness (fun _ => made) fun _ _ => ?_
  refine stays_fresh (fun _ => made) fun freeze fresh => ?_
  split_ifs with approved
  · refine stays_finishMedia held made active rendering ?_ (next.completed _ script) (next.completed _ audio)
      (next.completed _ contracts) images
    cases sheet : c₅.approvals.visualFreeze with
    | none =>
      rw [sheet] at approved
      cases approved
    | some approval => rfl
  · refine stays_save (fun _ => made) ?_
    have frozen := made.tail (.run (.frozenSheet held active fresh ⟨rendering, approved⟩))
    refine stays_deliver rfl frozen ⟨active.going, active.approved⟩ (fun same => by cases same)
      fun artifact found _ => ⟨rendering, ?_⟩
    obtain rfl : freeze = artifact := by simpa [PerKind.get, PerKind.set] using found
    exact approved

theorem stays_run : Stays L oracle pid (Reached L .run w) (run L) w := by
  unfold run
  refine stays_load reached_self fun control valid => ?_
  have held := loaded_control valid
  refine stays_require reached_self fun approved => ?_
  split_ifs with waits due
  · exact stays_status reached_self
  · refine stays_deliver held .refl ⟨by simpa using waits, approved⟩ (fun _ => due) fun _ _ other => ?_
    exact absurd rfl other
  · exact stays_produceMedia held .refl ⟨by simpa using waits, approved⟩ due

theorem stays_program (call : Call) :
    Stays L oracle pid (fun w' pending => Moves L call w w' ∨ Torn L call w w' pending) (call.program L) w := by
  have plain {program : Program Status} (stays : Stays L oracle pid (Reached L call w) program w) :
      Stays L oracle pid (fun w' pending => Moves L call w w' ∨ Torn L call w w' pending) program w :=
    stays.mono fun _ _ reached => .inl reached
  cases call with
  | createPlan request => exact plain (stays_createPlan request)
  | approvePlan planHash reviewer => exact plain (stays_approvePlan planHash reviewer)
  | run => exact plain stays_run
  | approve kind artifactHash reviewer => exact plain (stays_approve kind artifactHash reviewer)
  | authorizePublication command reviewer => exact plain (stays_authorizePublication command reviewer)
  | publish command => exact stays_publish command
  | reject reason reviewer directives => exact plain (stays_reject reason reviewer directives)

end VideoPoster.Harness
