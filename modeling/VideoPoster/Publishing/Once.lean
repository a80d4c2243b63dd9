import VideoPoster.Interleaving.RelyGuarantee
import VideoPoster.Publishing.Controller
import VideoPoster.State.Runs

/-!
# How often an episode is uploaded
-/

namespace VideoPoster.Publishing
open Python Approval Interleaving State Config EpisodeStateStore List Nat Program Call

def isUpload (e : Event actions) : Bool :=
  match e.action with
  | .upload _ _ _ _ => true
  | _ => false

def savesUploading : Event actions → Bool
  | ⟨_, .save store, .ok _⟩ => store.currentState = .uploading
  | _ => false

def Inv (s : Shared machine) : Prop :=
  ∀ pid, countBy isUpload pid s.trace ≤ countBy savesUploading pid s.trace

def Entitled (pid : ℕ) : Assertion machine := fun s =>
  countBy isUpload pid s.trace < countBy savesUploading pid s.trace

def grants (pid : ℕ) (s : Shared machine) : Act → Prop
  | .save store => store.currentState = .uploading ∨ store.currentState = .published
  | .upload _ _ _ _ => Entitled pid s
  | _ => True

def Act.quiet : Act → Prop
  | .save _ | .writeReceipt _ | .upload _ _ _ _ => False
  | _ => True

section Steps
variable {pid : ℕ} {action : Act} {response : action.Res} {s s' : Shared machine}

theorem isUpload_eq_true {e : Event actions} (is : isUpload e = true) :
    ∃ video metadata thumbnail captions, e.action = .upload video metadata thumbnail captions := by
  obtain ⟨process, action, response⟩ := e
  cases action with
  | upload video metadata thumbnail captions => exact ⟨video, metadata, thumbnail, captions, rfl⟩
  | _ => cases is

theorem Inv.step (inv : Inv s) (granted : grants pid s action)
    (performs : Performs pid action response s s') : Inv s' := by
  intro actor
  rw [performs.countBy, performs.countBy]
  by_cases uploads : (isUpload ⟨pid, action, response⟩ && decide (pid = actor)) = true
  · obtain ⟨is, same⟩ := Bool.and_eq_true_iff.mp uploads
    obtain ⟨_, _, _, _, rfl⟩ := isUpload_eq_true is
    obtain rfl := of_decide_eq_true same
    rw [if_pos uploads]
    exact (succ_le_of_lt granted).trans (le_add_right _ _)
  · rw [if_neg uploads]
    exact (inv actor).trans (le_add_right _ _)

end Steps

def discipline : Protocol machine where
  inv := Inv
  grants := grants
  preserves := Inv.step
  survives := fun _ => id

section Conduct
variable {pid : ℕ} {α : Type}

theorem granted_of_quiet (pid : ℕ) (action : Act) (quiet : action.quiet) (s : Shared machine)
    (_ : Inv s) : grants pid s action := by
  cases action with
  | save | writeReceipt | upload => cases quiet
  | _ => trivial

variable {action : Act}

theorem only_readback (supported : Bool) (videoId : String) : (readback supported videoId).Only Act.quiet :=
  .bind (.ofExcept _) fun _ => only_request trivial

theorem only_requirePublicationAuthorization (command expectedCommand : String)
    (video thumbnail : ApprovalReceipt) (metadataSha256 : String) :
    (requirePublicationAuthorization command expectedCommand video thumbnail metadataSha256).Only Act.quiet :=
  .bind (.ofExcept _) fun _ => .bind (.ofExcept _) fun _ => .bind (.ofExcept _) fun _ =>
    .request trivial fun _ => .request trivial fun _ =>
      .act trivial fun _ => trivial

theorem only_boundVideo (call : Call) (receipt : Json) : (call.boundVideo receipt).Only Act.quiet := by
  unfold boundVideo
  cases entries receipt with
  | none => trivial
  | some dict =>
    refine .bind (.ofExcept _) fun _ => .request trivial fun _ =>
      .bind (.ofExcept _) fun _ => ?_
    cases nonEmptyText (Dict.get dict "video_id") <;> trivial

theorem only_captions (call : Call) : call.captions.Only Act.quiet := by
  unfold captions
  cases call.captionsPath with
  | none => trivial
  | some path =>
    exact .act trivial fun _ => .bind (.ofExcept _) fun _ => only_act trivial

theorem only_recorded (state : EpisodeStateStore) : (recorded state).Only Act.quiet := by
  unfold recorded
  split
  · exact only_act trivial
  · trivial

theorem only_authorize (call : Call) (state : EpisodeStateStore) : (call.authorize state).Only Act.quiet :=
  .bind (.ofExcept _) fun _ => .act trivial fun _ => .bind (.ofExcept _) fun _ =>
    .request trivial fun _ => .bind (.ofExcept _) fun _ =>
      .act trivial fun _ => .bind (.ofExcept _) fun _ =>
        .request trivial fun _ =>
          .bind (only_requirePublicationAuthorization ..).attempt fun _ =>
            .bind (.ofExcept _) fun _ => trivial

theorem conforms_of_quiet {program : Program α} (only : program.Only Act.quiet) : discipline.Conforms program :=
  .of_only granted_of_quiet only

theorem framed_entitled : discipline.Framed pid Act.quiet (Entitled pid) := by
  refine .of_keep ?_ fun _ => id
  intro actor action response s s' _ _ performs own entitled
  have none : (isUpload ⟨actor, action, response⟩ && decide (actor = pid)) = false := by
    by_contra uploads
    obtain ⟨is, same⟩ := Bool.and_eq_true_iff.mp (Bool.of_not_eq_false uploads)
    obtain ⟨_, _, _, _, rfl⟩ := isUpload_eq_true is
    exact own (of_decide_eq_true same)
  rw [Entitled, performs.countBy, performs.countBy, none]
  exact lt_of_lt_of_le entitled (le_add_right _ _)

variable {store : EpisodeStateStore}

theorem currentState_of_transitionTo {next : EpisodeStateStore} {request : Request}
    (accepted : store.transitionTo request = .ok next) : next.currentState = request.toState := by
  obtain ⟨_, _, -, rfl⟩ := move_of_transitionTo accepted
  rfl

theorem entitled_of_save (uploading : store.currentState = .uploading) {s s' : Shared machine} (inv : Inv s)
    (performs : Performs (M := machine) pid (.save store) (.ok () : Result Unit) s s') : Entitled pid s' := by
  have saves : savesUploading ⟨pid, .save store, (.ok () : Result Unit)⟩ = true :=
    decide_eq_true uploading
  rw [Entitled, performs.countBy, performs.countBy, saves, decide_eq_true rfl]
  exact lt_succ_of_le (inv pid)

theorem safe_transition (state : EpisodeStateStore) {toState : EpisodeState}
    (note : String) (forward : toState = .uploading ∨ toState = .published) : discipline.Safe pid (fun _ => True)
    (transition state toState note) (fun _ s => toState = .uploading → Entitled pid s) fun _ _ => True := by
  refine .bind (conforms_of_quiet (only_act (by trivial)) pid) fun timestamp => ?_
  refine .bind (conforms_of_quiet (only_act (by trivial)) pid) fun updatedAt => ?_
  refine .ofExcept_bind (fun next accepted => ?_) fun _ _ _ _ _ => trivial
  have current := currentState_of_transitionTo accepted
  refine .bind (Q := fun _ s => toState = .uploading → Entitled pid s) ?_ fun _ _ _ => id
  have granted : next.currentState = .uploading ∨ next.currentState = .published := by
    rw [current]
    exact forward
  refine .request (fun _ _ _ => granted)
    (fun _ => framed_entitled.imp.stable) (fun _ => .true) ?_ fun _ _ _ _ _ _ _ _ _ => trivial
  rintro r ⟨⟩ s s' rfl inv _ performs _ uploading
  exact entitled_of_save (current.trans uploading) inv performs

theorem conforms_published (state : EpisodeStateStore) (note : String) :
    discipline.Conforms (transition state .published note) :=
  fun _ => (safe_transition state note (.inr rfl)).consequence (fun _ _ _ => trivial)
    (fun _ _ _ => trivial) fun _ _ _ => trivial

theorem conforms_recover (call : Call) (state : EpisodeStateStore) : discipline.Conforms (call.recover state) :=
  .bind (conforms_of_quiet (only_request trivial)) fun _ =>
    .bind (conforms_of_quiet (only_request trivial)) fun _ =>
      .bind (conforms_of_quiet (only_request trivial)) fun _ =>
        .bind (conforms_of_quiet (only_boundVideo ..)) fun _ =>
          .bind (conforms_of_quiet (only_readback ..)) fun _ => .bind (.ofExcept _) fun _ =>
            .bind (conforms_published _ _) fun _ => .pure _

theorem conforms_writeReceipt (receipt : Json) :
    discipline.Conforms (Prog.request (.writeReceipt receipt) id : Program Unit) :=
  fun _ => .request (fun _ _ _ => trivial) (fun _ => .true) (fun _ => .true)
    (fun _ _ _ _ _ _ _ _ _ => trivial) fun _ _ _ _ _ _ _ _ _ => trivial

theorem safe_upload (call : Call) (state : EpisodeStateStore) (metadata : Json)
    (metadataSha256 captions : String) (authorization : PublicationAuthorization) : discipline.Obeys pid (Entitled pid)
    (call.upload state metadata metadataSha256 captions authorization) := by
  refine .bind (Q := fun _ _ => True) ?_ fun result => ?_
  · exact .request (fun _ _ => id) (fun _ => .true) (fun _ => .true)
      (fun _ _ _ _ _ _ _ _ _ => trivial) fun _ _ _ _ _ _ _ _ _ => trivial
  exact Protocol.Conforms.bind (.ofExcept _) (fun _ =>
    .bind (conforms_of_quiet (only_readback ..)) fun _ => .bind (.ofExcept _) fun _ =>
      .bind (conforms_of_quiet (only_act (by trivial))) fun _ =>
        .bind (conforms_writeReceipt _) fun _ =>
          .bind (conforms_of_quiet (only_request (by trivial))) fun _ =>
            .bind (.ofExcept _) fun _ => .bind (conforms_published _ _) fun _ => .pure _) pid

theorem safe_publish (call : Call) : discipline.Obeys pid (fun _ => True) call.publish := by
  refine .bind (conforms_of_quiet (only_request (by trivial)) pid) fun state => ?_
  refine .bind (conforms_of_quiet (only_recorded state) pid) fun recorded => ?_
  cases recorded with
  | true => exact conforms_recover call state pid
  | false =>
    refine .bind (conforms_of_quiet (only_authorize call state) pid) fun checked => ?_
    refine .bind (conforms_of_quiet (only_captions call) pid) fun captions => ?_
    refine .bind (safe_transition state _ (.inl rfl)) fun next => ?_
    exact (safe_upload ..).strengthen fun _ _ entitled => entitled rfl

end Conduct

theorem discipline_admits : discipline.Admits publications := by
  rintro _ ⟨call, rfl⟩ pid
  exact .bind (safe_publish call) fun _ _ _ _ => trivial

def World.Waiting (w : World) : Prop :=
  ∃ now store, load w.state now = .ok store ∧ store.currentState = .waitingFinalApproval

/-- Whoever saves `UPLOADING` finds the state file still waiting for the final approval. -/
def stillWaiting : Condition machine := fun w e => savesUploading e = true → w.Waiting

def World.Saved (w : World) : Prop :=
  ∃ store : EpisodeStateStore, w.state = some (.file (.ok (.obj store.toDict))) ∧
    (store.currentState = .uploading ∨ store.currentState = .published)

theorem currentState_of_load {store loaded : EpisodeStateStore} {now : String} (is :
    load (some (.file (.ok (.obj store.toDict)))) now = .ok loaded) : loaded.currentState = store.currentState := by
  change fromDict store.toDict now = .ok loaded at is
  simp only [fromDict, bind_eq_ok] at is
  obtain ⟨_, -, text, stored, current, named, _, -, _, -, _, -, _, -, rest⟩ := is
  cases (Except.ok.inj stored : store.currentState.value = text)
  rw [EpisodeState.ofValue_value] at named
  cases named
  split at rest
  · obtain ⟨_, -, rest⟩ := bind_eq_ok.mp rest
    cases rest
    rfl
  · cases rest
    rfl

theorem World.Saved.not_waiting {w : World} (saved : w.Saved) : ¬ w.Waiting := by
  obtain ⟨store, is, forward⟩ := saved
  rintro ⟨now, loaded, read, waiting⟩
  rw [is] at read
  rw [currentState_of_load read] at waiting
  rw [waiting] at forward
  rcases forward with wrong | wrong <;> cases wrong

variable {pid : ℕ} {action : Act} {response : action.Res} {s s' : Shared machine}

theorem world_of_performs (performs : Performs pid action response s s') :
    s'.world.state = s.world.state ∧ savesUploading ⟨pid, action, response⟩ =
    false ∨ ∃ store, action = .save store ∧ s'.world.state = some (.file (.ok (.obj store.toDict))) := by
  obtain ⟨oracle, executed, -⟩ := performs
  cases action with
  | save store =>
    rcases written_eq (Option.some.inj executed) with ⟨same, refused⟩ | ⟨same, -⟩
    · refine .inl ⟨by rw [same], ?_⟩
      cases response with
      | ok value => exact absurd rfl refused
      | error e => rfl
    · exact .inr ⟨store, rfl, by rw [same]⟩
  | writeReceipt receipt =>
    rcases written_eq (Option.some.inj executed) with ⟨same, -⟩ | ⟨same, -⟩
    · exact .inl ⟨by rw [same], rfl⟩
    · exact .inl ⟨by rw [same], rfl⟩
  | _ =>
    have same := (Prod.mk.inj (Option.some.inj executed)).1
    exact .inl ⟨by rw [← same], rfl⟩

def SavedOnce (s : Shared machine) : Prop :=
  s.trace.countP savesUploading ≤ 1 ∧ (0 < s.trace.countP savesUploading → s.world.Saved)

theorem SavedOnce.step (once : SavedOnce s) (granted : grants pid s action) (meets : stillWaiting
    s.world ⟨pid, action, response⟩) (performs : Performs pid action response s s') : SavedOnce s' := by
  have extended : s'.trace = ⟨pid, action, response⟩ :: s.trace := performs.choose_spec.2
  rw [SavedOnce, extended, countP_cons]
  rcases world_of_performs performs with ⟨same, other⟩ | ⟨store, rfl, is⟩
  · rw [other, World.Saved, same]
    exact once
  · have saved : s'.world.Saved := ⟨store, is, granted⟩
    refine ⟨?_, fun _ => saved⟩
    split
    · rename_i saves
      have none : s.trace.countP savesUploading = 0 := by
        by_contra some
        exact (once.2 (pos_of_ne_zero some)).not_waiting (meets saves)
      rw [none]
    · exact once.1

/-- In every run in which each save of `UPLOADING` finds the state file still waiting for the final
approval, the publisher is called at most once. -/
theorem uploaded_at_most_once {w : World} {c : Config machine Error}
    (reaches : Reaches publications stillWaiting (initial w) c) : c.trace.countP isUpload ≤ 1 := by
  have start : Inv ⟨w, []⟩ := fun _ => le_rfl
  have sound : discipline.Sound (initial (ε := Error) w) := .initial start
  have once : SavedOnce c.toShared := by
    refine sound.invariant discipline_admits ?_ ?_ ⟨zero_le 1, nofun⟩ reaches
    · intro pid action response s s' _ once granted meets performs
      exact once.step granted meets performs
    · intro s pid _ once
      exact once
  exact countP_le_one (sound.reaches discipline_admits reaches).inv once.1

def sampleWaiting : World where
  state := some (.file (.ok (.obj (toDict
    { episodeId := "EP000001", currentState := .waitingFinalApproval, updatedAt := "t0" }))))
  receipt := none

def sampleDigest : String := String.ofList (replicate 64 'a')

def sampleCall : Call where
  expectedCommand := "publish"
  command := "publish"
  video := ⟨"video", "video.mp4", "hash", "human", "now", none⟩
  thumbnail := ⟨"thumbnail", "thumbnail.png", "hash", "human", "now", none⟩
  metadataPath := "metadata.json"
  captionsPath := none
  hasReadback := true

def sampleOracle : Oracle where
  now := "t1"
  look := .ok (some "hash")
  digest := .ok sampleDigest
  isFile := true
  metadata := .ok (.obj [])
  resolved := "metadata.json"
  failure := none
  uploaded := .ok ⟨true, "id", "url"⟩
  readback := .ok (.obj [("video_id", .str "id")])

def twoCalls (steps : List ℕ) : List (Move machine Error) :=
  [.spawn sampleCall.publish.discard, .spawn sampleCall.publish.discard] ++
    steps.map fun pid => .perform pid sampleOracle

theorem twoCalls_calls (steps : List ℕ) : ∀ m ∈ twoCalls steps, m.calls ⊆ publications := by
  intro m member
  rcases mem_append.mp member with spawned | performed
  · simp only [mem_cons, not_mem_nil, or_false, or_self] at spawned
    rw [spawned]
    rintro _ rfl
    exact ⟨sampleCall, rfl⟩
  · obtain ⟨pid, -, rfl⟩ := mem_map.mp performed
    exact Set.empty_subset _

def checkWaiting (w : World) (e : Event actions) : Bool :=
  !savesUploading e || ((load w.state "").toOption.any fun store =>
    store.currentState = .waitingFinalApproval)

theorem stillWaiting_of_check (w : World) (e : Event actions) (checked : checkWaiting w e = true) :
    stillWaiting w e := by
  intro saves
  simp only [checkWaiting, saves, Bool.not_true, Bool.false_or] at checked
  obtain ⟨store, loaded, waiting⟩ := (Option.any_eq_true _ _).mp checked
  exact ⟨"", store, toOption_eq_some.mp loaded, of_decide_eq_true waiting⟩

theorem uploaded_by_first_call : ∃ c : Config machine Error, Reaches
    publications stillWaiting (initial sampleWaiting) c ∧ c.trace.length = 20 ∧ c.trace.countP isUpload = 1 := by
  have passed : (simulate checkWaiting (initial sampleWaiting)
      (twoCalls (replicate 19 0 ++ [1]))).any (fun c =>
        decide (c.trace.length = 20) && decide (0 < c.trace.countP isUpload)) = true := by
    decide
  obtain ⟨c, reached, holds⟩ :=
    exists_reaches stillWaiting_of_check (twoCalls_calls _) passed
  simp only [Bool.and_eq_true, decide_eq_true_eq] at holds
  exact ⟨c, reached, holds.1, le_antisymm (uploaded_at_most_once reached) holds.2⟩

theorem uploaded_by_both_calls : ∃ c : Config machine Error,
    Reaches publications anyStep (initial sampleWaiting) c ∧ c.trace.countP isUpload = 2 := by
  have passed : (simulate (fun _ _ => true) (initial sampleWaiting)
      (twoCalls ([0, 1] ++ replicate 11 0 ++ replicate 11 1))).any (fun c =>
        decide (c.trace.countP isUpload = 2)) = true := by
    decide
  obtain ⟨c, reached, holds⟩ :=
    exists_reaches (fun _ _ _ => trivial) (twoCalls_calls _) passed
  exact ⟨c, reached, of_decide_eq_true holds⟩

end VideoPoster.Publishing
