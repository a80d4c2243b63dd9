import VideoPoster.Autonomous.Once
import VideoPoster.Autonomous.Verdict

/-!
# The documents of a history
-/

namespace VideoPoster.Autonomous
open Python Runner List Function

variable {requestId jobSha256 : Job → String} {runner : Runner} {disk : Option Document}
  {document document' : Document} {id : String}

theorem approvedIn_eq_none : approvedIn document id = none ↔ qaOf document id = none := Option.map_eq_none_iff

theorem approvedIn_setQa (verdict : Verdict) (other : String) : approvedIn (setQa document id verdict) other =
      if other = id then some verdict.approved else approvedIn document other := by
  split_ifs with same
  · rw [same, approvedIn, qaOf_setQa]
    rfl
  · rw [approvedIn, approvedIn, qaOf, qaOf, setQa, lookup_append]
    have kept : ∀ entries : List (String × Verdict),
        (entries.filter fun entry => entry.1 ≠ id).lookup other = entries.lookup other := by
      intro entries
      induction entries with
      | nil => rfl
      | cons entry rest ih =>
        obtain ⟨key, value⟩ := entry
        by_cases removed : key = id
        · have skipped : (other == key) = false := by
            rw [removed]
            exact beq_eq_false_iff_ne.mpr same
          rw [filter_cons_of_neg (by simpa using removed), ih, lookup_cons, skipped]
        · rw [filter_cons_of_pos (by simpa using removed), lookup_cons, lookup_cons, ih]
    rw [kept, lookup_cons, beq_eq_false_iff_ne.mpr same]
    simp

theorem validateQa_iff {inspect : String → Result (Option Receipt)} {entries : List (String × Verdict)} :
    validateQa inspect entries = .ok () ↔ ∀ entry ∈ entries, entry.2.approved = true →
      ∃ receipt, inspect entry.1 = .ok receipt ∧ validatePersistedQa receipt entry.1 entry.2 = .ok () := by
  induction entries with
  | nil => exact ⟨fun _ entry member => (not_mem_nil member).elim, fun _ => rfl⟩
  | cons entry rest ih =>
    rw [forall_mem_cons, ← ih]
    obtain ⟨id, verdict⟩ := entry
    cases approved : verdict.approved with
    | false => simp [validateQa, approved]
    | true =>
      simp only [validateQa, approved, if_true, bind_eq_ok, true_implies]
      constructor
      · rintro ⟨receipt, seen, ⟨⟩, bound, later⟩
        exact ⟨⟨receipt, seen, bound⟩, later⟩
      · rintro ⟨⟨receipt, seen, bound⟩, later⟩
        exact ⟨receipt, seen, (), bound, later⟩

variable {sha256 : String} {answer : Option QaAnswer}

theorem judge_approved (approved : (judge id sha256 answer).approved = true) : (judge id sha256 answer).resultSha256 =
    some sha256 ∧ (judge id sha256 answer).reviewer.any (fun reviewer => ¬blank reviewer)
    = true ∧ independent (judge id sha256 answer).identity = true := by
  unfold judge at approved ⊢
  split at approved
  · split_ifs at approved ⊢ with bound given
    exact ⟨rfl, given.2, bound.2.2⟩
  · cases approved

def Verifiable (document : Document) : Prop := ∃ inspect, validateQa inspect document.qa = .ok ()

theorem Verifiable.setQa (verifiable : Verifiable document) :
    Verifiable (setQa document id (judge id sha256 answer)) := by
  obtain ⟨inspect, valid⟩ := verifiable
  refine ⟨update inspect id (.ok (some ⟨"COMPLETE", id, some sha256, true, some sha256⟩)), ?_⟩
  refine validateQa_iff.2 fun entry member accepted => ?_
  obtain kept | new := mem_append.mp member
  · obtain ⟨before, other⟩ := mem_filter.mp kept
    have other : entry.1 ≠ id := of_decide_eq_true other
    rw [update_of_ne other]
    exact validateQa_iff.1 valid entry before accepted
  · obtain rfl := mem_singleton.mp new
    obtain ⟨bound, reviewer, identity⟩ := judge_approved accepted
    refine ⟨_, update_self .., ?_⟩
    exact require_eq_ok.mpr ⟨accepted, rfl, rfl, rfl, rfl, bound, rfl, reviewer, identity⟩

structure Sound (requestId jobSha256 : Job → String) (document : Document) : Prop where
  ids : document.jobs.map Binding.requestId = document.jobSpecs.map requestId
  sha256s : document.jobs.map Binding.jobSha256 = document.jobSpecs.map jobSha256
  distinct : (document.jobs.map Binding.requestId).Nodup
  verifiable : Verifiable document

def SoundDisk (requestId jobSha256 : Job → String) (disk : Option Document) : Prop :=
  ∀ document, disk = some document → Sound requestId jobSha256 document

theorem Sound.onDisk (sound : Sound requestId jobSha256 document) : SoundDisk requestId jobSha256 (some document) := by
  intro document' is
  cases is
  exact sound

theorem Sound.of_same (sound : Sound requestId jobSha256 document) (jobs : document'.jobs = document.jobs)
    (specs : document'.jobSpecs = document.jobSpecs) (qa : document'.qa = document.qa) :
    Sound requestId jobSha256 document' where
  ids := by rw [jobs, specs, sound.ids]
  sha256s := by rw [jobs, specs, sound.sha256s]
  distinct := by rw [jobs]; exact sound.distinct
  verifiable := by rw [Verifiable, qa]; exact sound.verifiable

variable {saves : Bool}

theorem save_sound {event : Option Event} (sound : SoundDisk requestId jobSha256 disk) (sound' :
    Sound requestId jobSha256 document) : SoundDisk requestId jobSha256 (save disk saves document event).disk := by
  cases saves with
  | false => exact sound
  | true => exact sound'.onDisk

theorem saveAndRaise_sound {error : Error} (sound : SoundDisk requestId jobSha256 disk) (sound' : Sound
    requestId jobSha256 document) : SoundDisk requestId jobSha256 (saveAndRaise disk saves document error).disk := by
  cases saves with
  | false => exact sound
  | true => exact sound'.onDisk

theorem start_sound (call : Start) (sound : SoundDisk requestId jobSha256 disk) :
    SoundDisk requestId jobSha256 (runner.start requestId jobSha256 disk call).disk := by
  unfold start
  split
  · split
    · exact sound
    · split_ifs
      · exact sound
      · exact sound
  · split
    · exact sound
    · rename_i admitted
      refine save_sound sound ⟨?_, ?_, ?_, fun _ => .error interrupted, rfl⟩
      · rw [map_map]
        rfl
      · rw [map_map]
        rfl
      · unfold admissible at admitted
        simp only [bind_eq_ok, require_eq_ok] at admitted
        obtain ⟨⟨⟩, -, ⟨⟩, distinct, -⟩ := admitted
        rw [map_map]
        exact distinct

structure Accepted (requestId : Job → String) (candidate : Document) (job : Job) : Prop where
  new : requestId job ∉ candidate.jobs.map Binding.requestId
  mode : job.mode = "TEST"
  predecessor : ∃ predecessor, findSpec requestId job.predecessor candidate.jobSpecs = .ok predecessor ∧
    job.scene = predecessor.scene ∧
    (job.category = "hero" ∧ approvedIn candidate job.predecessor = some true ∧ predecessor.category = "first" ∨
      job.category ∈ ["alternative", "correction", "hero_retry"] ∧
        approvedIn candidate job.predecessor = some false)

def appended (requestId jobSha256 : Job → String) (candidate : Document) (job : Job) : Document :=
  { candidate with
    jobs := (candidate.jobs ++ [jobBinding requestId jobSha256 job]).map fun item =>
      if item.requestId = job.predecessor then { item with supersededBy := some (requestId job) } else item
    jobSpecs := candidate.jobSpecs ++ [job] }

variable {candidate : Document} {job : Job} {new : Bool}

theorem addSuccessor_eq_ok (is : runner.addSuccessor requestId jobSha256 candidate job = .ok (document, new)) :
    new = false ∧ document = candidate ∧ (⟨requestId job, jobSha256 job⟩ : String × String)
    ∈ candidate.jobs.map (fun item => (item.requestId, item.jobSha256))
    ∨ new = true ∧ document = appended requestId jobSha256 candidate job ∧ Accepted requestId candidate job := by
  unfold addSuccessor at is
  dsimp only at is
  split at is
  · rename_i existing found
    obtain ⟨⟨⟩, same, is⟩ := bind_eq_ok.mp is
    cases is
    refine .inl ⟨rfl, rfl, mem_map.mpr ⟨existing, mem_of_find?_eq_some found, ?_⟩⟩
    exact Prod.ext (by simpa using find?_some found) (require_eq_ok.mp same)
  · rename_i absent
    have new : requestId job ∉ candidate.jobs.map Binding.requestId := by
      intro member
      obtain ⟨item, member, same⟩ := mem_map.mp member
      exact find?_eq_none.mp absent item member (decide_eq_true same)
    obtain ⟨⟨⟩, admitted, is⟩ := bind_eq_ok.mp is
    obtain ⟨⟨⟩, -, is⟩ := bind_eq_ok.mp is
    obtain ⟨predecessor, found, is⟩ := bind_eq_ok.mp is
    obtain ⟨⟨⟩, scene, is⟩ := bind_eq_ok.mp is
    split_ifs at is with hero retry
    · simp only [bind_eq_ok, require_eq_ok, pure_eq_ok, Prod.mk.injEq] at is
      obtain ⟨⟨⟩, judged, ⟨⟩, -, ⟨⟩, -, rfl, rfl⟩ := is
      exact .inr ⟨rfl, rfl, new, (require_eq_ok.mp admitted).1, predecessor, found, require_eq_ok.mp scene,
        .inl ⟨hero, judged⟩⟩
    · simp only [bind_eq_ok, require_eq_ok, pure_eq_ok, Prod.mk.injEq] at is
      obtain ⟨⟨⟩, judged, ⟨⟩, -, ⟨⟩, -, rfl, rfl⟩ := is
      exact .inr ⟨rfl, rfl, new, (require_eq_ok.mp admitted).1, predecessor, found, require_eq_ok.mp scene,
        .inr ⟨retry, judged⟩⟩
    · cases is

theorem map_superseded {β : Type} (read : Binding → β) (same : ∀ item other, read { item with supersededBy := other }
    = read item) (items : List Binding) (id successor : String) : (items.map fun item => if item.requestId =
    id then { item with supersededBy := some successor } else item).map read = items.map read := by
  rw [map_map]
  refine map_congr_left fun item _ => ?_
  dsimp only [comp_apply]
  split_ifs
  · exact same item _
  · rfl

theorem Sound.appended (sound : Sound requestId jobSha256 document) (new : requestId job
    ∉ document.jobs.map Binding.requestId) : Sound requestId jobSha256 (appended requestId jobSha256 document job) := by
  have ids := map_superseded Binding.requestId (fun _ _ => rfl)
    (document.jobs ++ [jobBinding requestId jobSha256 job]) job.predecessor (requestId job)
  refine ⟨?_, ?_, ?_, sound.verifiable⟩
  · refine ids.trans ?_
    rw [map_append, sound.ids]
    simp [Autonomous.appended, jobBinding]
  · refine (map_superseded Binding.jobSha256 (fun _ _ => rfl) _ _ _).trans ?_
    rw [map_append, sound.sha256s]
    simp [Autonomous.appended, jobBinding]
  · refine Eq.mpr (congrArg List.Nodup ids) ?_
    rw [map_append]
    refine nodup_append.mpr ⟨sound.distinct, nodup_singleton _, fun id member other last same => new ?_⟩
    have isNew : other = requestId job := mem_singleton.mp last
    rw [← isNew, ← same]
    exact member

theorem addAll_sound {jobs : List Job} (sound : Sound requestId jobSha256 candidate) (is :
    runner.addAll requestId jobSha256 candidate jobs = .ok (document, new)) : Sound requestId jobSha256 document := by
  induction jobs generalizing candidate new with
  | nil =>
    cases is
    exact sound
  | cons job rest ih =>
    obtain ⟨⟨middle, first⟩, added, is⟩ := bind_eq_ok.mp is
    obtain ⟨⟨last, more⟩, later, is⟩ := bind_eq_ok.mp is
    cases is
    refine ih ?_ later
    obtain ⟨-, rfl, -⟩ | ⟨-, rfl, accepted⟩ := addSuccessor_eq_ok added
    · exact sound
    · exact sound.appended accepted.new

theorem addSuccessors_sound (call : AddSuccessors) (sound : SoundDisk requestId jobSha256 disk) :
    SoundDisk requestId jobSha256 (runner.addSuccessors requestId jobSha256 disk call).disk := by
  unfold addSuccessors
  split
  · exact sound
  · rename_i document loaded
    split_ifs
    · exact sound
    · split
      · exact sound
      · exact sound
      · rename_i added
        exact save_sound sound ((addAll_sound (sound document (load_eq_ok loaded)) added).of_same rfl rfl rfl)

variable {inflight : List String}

theorem settle_sound {inflight' : List String} {done : List Done} {stop : Option Error}
    (sound : Sound requestId jobSha256 document)
    (is : settle document inflight done = (document', inflight', stop)) : Sound requestId jobSha256 document' := by
  induction done generalizing document inflight with
  | nil =>
    cases is
    exact sound
  | cons task rest ih =>
    unfold settle at is
    split at is
    · split at is
      · cases is
        exact sound
      · exact ih sound is
      · dsimp only at is
        split at is
        · cases is
          exact sound
        · split at is
          · refine ih (?_ : Sound requestId jobSha256 (setQa document _ _)) is
            exact ⟨sound.ids, sound.sha256s, sound.distinct, sound.verifiable.setQa⟩
          · cases is
            exact sound
    · cases is
      exact sound

theorem rounds_sound {ordered : List String} {edges : String → List String} {window : ℕ}
    {turns : List Round} (sound : Sound requestId jobSha256 document) :
    SoundDisk requestId jobSha256 (rounds ordered edges window document inflight turns).disk := by
  induction turns generalizing document inflight with
  | nil => exact sound.onDisk
  | cons turn turns ih =>
    have marked : ∀ state, Sound requestId jobSha256 { document with state := state } :=
      fun state => sound.of_same rfl rfl rfl
    unfold rounds
    split
    · split
      · exact saveAndRaise_sound sound.onDisk (marked _)
      · exact sound.onDisk
    · split
      · exact save_sound sound.onDisk (marked _)
      · dsimp only
        split
        · split
          · exact save_sound sound.onDisk (marked _)
          · exact sound.onDisk
        · split
          · exact save_sound sound.onDisk (marked _)
          · split
            · exact sound.onDisk
            · split
              · rename_i settled
                exact (settle_sound sound settled).onDisk
              · rename_i settled
                exact ih (settle_sound sound settled)

theorem resumeParallel_sound (call : Resume) (sound : SoundDisk requestId jobSha256 disk) :
    SoundDisk requestId jobSha256 (runner.resumeParallel requestId jobSha256 disk call).disk := by
  unfold resumeParallel
  split
  · exact sound
  · rename_i document loaded
    have kept := sound document (load_eq_ok loaded)
    split
    · exact sound
    split
    · exact sound
    split
    · split
      · split
        · exact saveAndRaise_sound sound (kept.of_same rfl rfl rfl)
        · exact sound
      · exact sound
    · split
      · dsimp only
        split
        · exact Sound.onDisk (kept.of_same rfl rfl rfl : Sound requestId jobSha256 { document with state := .running })
        · exact rounds_sound (kept.of_same rfl rfl rfl)
      · exact sound

theorem stageDelivery_sound (call : StageDelivery) (sound : SoundDisk requestId jobSha256 disk) :
    SoundDisk requestId jobSha256 (runner.stageDelivery disk call).disk := by
  unfold stageDelivery
  split
  · exact sound
  · rename_i document loaded
    have kept := sound document (load_eq_ok loaded)
    split
    · exact sound
    · split
      · exact saveAndRaise_sound sound (kept.of_same rfl rfl rfl)
      · split
        · exact sound
        · exact save_sound sound (kept.of_same rfl rfl rfl)

theorem recordHumanGate_sound (call : RecordHumanGate) (sound : SoundDisk requestId jobSha256 disk) :
    SoundDisk requestId jobSha256 (runner.recordHumanGate disk call).disk := by
  unfold recordHumanGate
  split
  · exact sound
  · rename_i document loaded
    have kept := sound document (load_eq_ok loaded)
    split
    · exact sound
    · exact save_sound sound (kept.of_same rfl rfl rfl)

theorem publish_sound (call : Publish) (sound : SoundDisk requestId jobSha256 disk) :
    SoundDisk requestId jobSha256 (runner.publish disk call).disk := by
  unfold publish
  split
  · exact sound
  · rename_i document loaded
    have marked : ∀ state, Sound requestId jobSha256 { document with state := state } :=
      fun state => (sound document (load_eq_ok loaded)).of_same rfl rfl rfl
    split
    · exact sound
    split
    · exact sound
    split
    · exact sound
    split
    · exact sound
    split
    · exact sound
    split
    · dsimp only
      split
      all_goals exact (marked _).onDisk
    · exact sound

theorem perform_sound (call : Call) (sound : SoundDisk requestId jobSha256 disk) :
    SoundDisk requestId jobSha256 (runner.perform requestId jobSha256 disk call).disk := by
  cases call with
  | start call => exact start_sound call sound
  | addSuccessors call => exact addSuccessors_sound call sound
  | resume call => exact resumeParallel_sound call sound
  | stageDelivery call => exact stageDelivery_sound call sound
  | recordHumanGate call => exact recordHumanGate_sound call sound
  | publish call => exact publish_sound call sound

theorem run_sound {calls : List Call} {history : List Event} (sound : SoundDisk requestId jobSha256 disk) :
    SoundDisk requestId jobSha256 (run requestId jobSha256 runner history disk calls).2 := by
  induction calls generalizing history disk with
  | nil => exact sound
  | cons call rest ih => exact ih (perform_sound call sound)

end VideoPoster.Autonomous
