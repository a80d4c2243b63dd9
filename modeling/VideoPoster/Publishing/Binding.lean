import VideoPoster.Publishing.Once

/-!
# What a published episode is bound to
-/

namespace VideoPoster.Publishing
open Python Approval Interleaving State Option Dict Program Node Bool Prog

def Authorizes (receipt : Json) (call : Call) (metadataSha256 : String) : Prop :=
  ∃ dict authorization, receipt = .obj dict ∧
    get dict "metadata_sha256" = some (.str metadataSha256) ∧
    get dict "authorization" = some (.obj authorization) ∧
    get authorization "video_sha256" = some (.str call.video.artifactSha256) ∧
    get authorization "thumbnail_sha256" = some (.str call.thumbnail.artifactSha256) ∧
    get authorization "metadata_sha256" = some (.str metadataSha256)

/-- The persisted receipt carries the hashes of the approvals passed to the call and the hash that
the call has read from its metadata. -/
def Bound (call : Call) (pid : ℕ) (s : Shared machine) : Prop :=
  ∃ receipt metadataSha256, s.world.receipt = some (.file (.ok receipt)) ∧
    Authorizes receipt call metadataSha256 ∧
    (⟨pid, .sha256 call.metadataPath, (.ok metadataSha256 : Result String)⟩ : Event actions) ∈ s.trace

def wroteReceipt : Event actions → Bool
  | ⟨_, .writeReceipt _, .ok _⟩ => true
  | _ => false

def publishes : Event actions → Bool
  | ⟨_, .save store, .ok _⟩ => store.currentState = .published
  | _ => false

structure BindingInv (call : Call) (pid : ℕ) (before : Option Node) (s : Shared machine) : Prop where
  kept : s.trace.any wroteReceipt = false → s.world.receipt = before
  recorded : s.trace.any wroteReceipt = true → Bound call pid s
  published : s.trace.any publishes = true → Bound call pid s

def bindingGrants (call : Call) (pid : ℕ) (actor : ℕ) (s : Shared machine) (action : Act) : Prop :=
  actor = pid ∧ match action with
    | .writeReceipt receipt => ∃ metadataSha256, Authorizes receipt call metadataSha256 ∧
        (⟨pid, .sha256 call.metadataPath, (.ok metadataSha256 : Result String)⟩ : Event actions) ∈ s.trace
    | .save store => store.currentState = .published → Bound call pid s
    | _ => True

section Steps
variable {call : Call} {pid actor : ℕ} {before : Option Node} {action : Act} {response : action.Res}
  {s s' : Shared machine}

theorem receipt_of_performs (performs : Performs actor action response s s') : s'.world.receipt =
    s.world.receipt ∧ wroteReceipt ⟨actor, action, response⟩ = false ∨ ∃ receipt, action = .writeReceipt receipt ∧
    wroteReceipt ⟨actor, action, response⟩ = true ∧ s'.world.receipt = some (.file (.ok receipt)) := by
  obtain ⟨oracle, executed, -⟩ := performs
  cases action with
  | save store =>
    rcases written_eq (some.inj executed) with ⟨same, -⟩ | ⟨same, -⟩
    · exact .inl ⟨by rw [same], rfl⟩
    · exact .inl ⟨by rw [same], rfl⟩
  | writeReceipt receipt =>
    rcases written_eq (some.inj executed) with ⟨same, refused⟩ | ⟨same, rfl⟩
    · refine .inl ⟨by rw [same], ?_⟩
      cases response with
      | ok value => exact absurd rfl refused
      | error e => rfl
    · exact .inr ⟨receipt, rfl, rfl, by rw [same]⟩
  | _ =>
    have same := (Prod.mk.inj (some.inj executed)).1
    exact .inl ⟨by rw [← same], rfl⟩

theorem Bound.later (performs : Performs actor action response s s')
    (same : s'.world.receipt = s.world.receipt) (bound : Bound call pid s) : Bound call pid s' := by
  obtain ⟨receipt, metadataSha256, is, authorizes, read⟩ := bound
  refine ⟨receipt, metadataSha256, same.trans is, authorizes, ?_⟩
  rw [performs.choose_spec.2]
  exact .tail _ read

theorem publishes_eq_true {e : Event actions} (is : publishes e = true) :
    ∃ store, e.action = .save store ∧ store.currentState = .published := by
  obtain ⟨process, action, response⟩ := e
  cases action with
  | save store =>
    cases response with
    | ok value => exact ⟨store, rfl, of_decide_eq_true is⟩
    | error e => cases is
  | _ => cases is

theorem BindingInv.step (inv : BindingInv call pid before s) (granted : bindingGrants call pid actor s action)
    (performs : Performs actor action response s s') : BindingInv call pid before s' := by
  have extended : s'.trace = ⟨actor, action, response⟩ :: s.trace := performs.choose_spec.2
  rcases receipt_of_performs performs with ⟨same, other⟩ | ⟨receipt, rfl, wrote, is⟩
  · constructor
    · rw [extended, List.any_cons, other, Bool.false_or, same]
      exact inv.kept
    · rw [extended, List.any_cons, other, Bool.false_or]
      exact fun wrote => (inv.recorded wrote).later performs same
    · rw [extended, List.any_cons, or_eq_true]
      rintro (now | earlier)
      · obtain ⟨store, rfl, published⟩ := publishes_eq_true now
        exact (granted.2 published).later performs same
      · exact (inv.published earlier).later performs same
  · obtain ⟨metadataSha256, authorizes, read⟩ := granted.2
    have bound : Bound call pid s' := by
      refine ⟨receipt, metadataSha256, is, authorizes, ?_⟩
      rw [extended]
      exact .tail _ read
    refine ⟨fun none => ?_, fun _ => bound, fun _ => bound⟩
    rw [extended, List.any_cons, wrote] at none
    cases none

end Steps

def binding (call : Call) (pid : ℕ) (before : Option Node) : Protocol machine where
  inv := BindingInv call pid before
  grants := bindingGrants call pid
  preserves := BindingInv.step
  survives := fun _ => id

section Conduct
variable {call : Call} {pid : ℕ} {before : Option Node} {α : Type}

theorem stable_alone (L : Assertion machine) : (binding call pid before).Stable pid L := by
  intro s s' _ step holds
  cases step with
  | perform foreign granted _ => exact absurd granted.1 foreign
  | crash _ => exact holds

variable {action : Act}

theorem bindingGrants_of_quiet (quiet : action.quiet) (s : Shared machine) : bindingGrants call pid pid s action := by
  refine ⟨rfl, ?_⟩
  cases action with
  | save | writeReceipt => cases quiet
  | _ => trivial

variable {response : action.Res} {s' s : Shared machine}

theorem receipt_of_quiet (performs : Performs pid action response s s') (quiet : action.quiet) :
    s'.world.receipt = s.world.receipt := by
  rcases receipt_of_performs performs with ⟨same, -⟩ | ⟨receipt, rfl, -⟩
  · exact same
  · cases quiet

def Knows (node : Option Node) (events : List (Event actions)) : Assertion machine :=
  fun s => s.world.receipt = node ∧ ∀ e ∈ events, e ∈ s.trace

variable {node : Option Node} {events : List (Event actions)}

theorem Knows.later (knows : Knows node events s) (same : s'.world.receipt = s.world.receipt)
    (performs : Performs pid action response s s') : Knows node events s' := by
  refine ⟨same.trans knows.1, fun e member => ?_⟩
  rw [performs.choose_spec.2]
  exact .tail _ (knows.2 e member)

theorem framed_knows : (binding call pid before).Framed pid Act.quiet (Knows node events) := by
  refine ⟨stable_alone _, fun _ performs _ quiet knows => ?_⟩
  exact Knows.later knows (receipt_of_quiet performs quiet) performs

theorem safe_quiet {program : Program α} (only : program.Only Act.quiet) :
    (binding call pid before).Safe pid (Knows node events) program (fun _ => Knows node events) fun _ _ => True :=
  (Protocol.Safe.of_only (fun _ quiet s _ => bindingGrants_of_quiet quiet s) only
    framed_knows).raising fun _ _ _ => trivial

abbrev readDigest (call : Call) (pid : ℕ) (metadataSha256 : String) : Event actions :=
  ⟨pid, .sha256 call.metadataPath, (.ok metadataSha256 : Result String)⟩

theorem safe_sha256 : (binding call pid before).Safe pid (Knows node []) (sha256 call.metadataPath)
      (fun metadataSha256 => Knows node [readDigest call pid metadataSha256]) fun _ _ => True := by
  refine .request (fun _ _ _ => ⟨rfl, trivial⟩) (fun _ => stable_alone _)
    (fun _ => .true) ?_ fun _ _ _ _ _ _ _ _ _ => trivial
  rintro r metadataSha256 s s' rfl _ knows performs _
  refine ⟨(receipt_of_quiet performs trivial).trans knows.1, fun e member => ?_⟩
  rw [List.mem_singleton.mp member, performs.choose_spec.2]
  exact .head _

theorem Knows.bound {receipt : Json} {metadataSha256 : String} (knows : Knows (some (.file (.ok receipt)))
    [readDigest call pid metadataSha256] s) (authorizes : Authorizes receipt call metadataSha256) : Bound call pid s :=
  ⟨receipt, metadataSha256, knows.1, authorizes, knows.2 _ (.head _)⟩

variable {receipt : Json} {metadataSha256 : String} {state : EpisodeStateStore}

variable {note : String}

theorem safe_published (authorizes : Authorizes receipt call metadataSha256) :
    (binding call pid before).Obeys pid (Knows (some (.file (.ok receipt))) [readDigest call pid metadataSha256])
      (transition state .published note) := by
  refine .bind (safe_quiet (only_act trivial)) fun timestamp => ?_
  refine .bind (safe_quiet (only_act trivial)) fun updatedAt => ?_
  refine .ofExcept_bind (fun next accepted => ?_) fun _ _ _ _ _ => trivial
  refine .bind (Q := fun _ _ => True) ?_ fun _ _ _ _ => trivial
  exact .request (fun _ _ knows => ⟨rfl, fun _ => knows.bound authorizes⟩)
    (fun _ => .true) (fun _ => .true) (fun _ _ _ _ _ _ _ _ _ => trivial)
    fun _ _ _ _ _ _ _ _ _ => trivial

theorem safe_uploading : (binding call pid before).Safe pid (Knows node events)
      (transition state .uploading note) (fun _ => Knows node events) fun _ _ => True := by
  refine .bind (safe_quiet (only_act trivial)) fun timestamp => ?_
  refine .bind (safe_quiet (only_act trivial)) fun updatedAt => ?_
  refine .ofExcept_bind (fun next accepted => ?_) fun _ _ _ _ _ => trivial
  have current := currentState_of_transitionTo accepted
  refine .bind (Q := fun _ => Knows node events) ?_ fun _ _ _ => id
  refine .request (fun _ _ _ => ⟨rfl, fun published => ?_⟩) (fun _ => stable_alone _)
    (fun _ => .true) ?_ fun _ _ _ _ _ _ _ _ _ => trivial
  · rw [current] at published
    cases published
  · intro r _ s s' _ _ knows performs _
    rcases receipt_of_performs performs with ⟨same, -⟩ | ⟨_, wrong, -⟩
    · exact Knows.later knows same performs
    · cases wrong

theorem safe_boundVideo {recorded : String} (authorizes : Authorizes receipt call recorded) :
    (binding call pid before).Safe pid (Knows (some (.file (.ok receipt))) []) (call.boundVideo receipt)
    (fun _ => Knows (some (.file (.ok receipt))) [readDigest call pid recorded]) fun _ _ => True := by
  obtain ⟨dict, authorization, rfl, digest, -⟩ := authorizes
  refine .check fun _ => ?_
  refine .bind safe_sha256 fun metadataSha256 => ?_
  refine .ofExcept_bind (fun _ same => ?_) fun _ _ _ _ _ => trivial
  have is : metadataSha256 = recorded := by
    have read := require_eq_ok.mp same
    rw [digest] at read
    cases read
    rfl
  rw [is]
  cases nonEmptyText (get dict "video_id") with
  | none => exact fun _ _ _ => trivial
  | some videoId => exact fun _ _ => id

theorem read_of_performs {r : Result Json}
    (performs : Performs (M := machine) pid .readReceipt r s s') : read s.world.receipt = r := by
  obtain ⟨_, executed, -⟩ := performs
  exact (Prod.mk.inj (some.inj executed)).2

theorem eq_of_read (read : read node = .ok receipt) : node = some (.file (.ok receipt)) := by
  cases node with
  | none => cases read
  | some node =>
    cases node with
    | other => cases read
    | file contents => exact congrArg (fun contents => some (file contents)) read

theorem safe_recover (state : EpisodeStateStore) (recovers : ∀ receipt, before = some (.file (.ok receipt)) →
      ∃ recorded, Authorizes receipt call recorded) :
    (binding call pid before).Obeys pid (Knows before []) (call.recover state) := by
  refine .bind (Q := fun receipt s => Knows before [] s ∧ before = some (.file (.ok receipt))) ?_
    fun receipt => ?_
  · refine .request (fun _ _ _ => ⟨rfl, trivial⟩) (fun _ => stable_alone _)
      (fun _ => .true) ?_ fun _ _ _ _ _ _ _ _ _ => trivial
    intro r receipt s s' read _ knows performs _
    refine ⟨Knows.later knows (receipt_of_quiet performs trivial) performs, ?_⟩
    have found := (read_of_performs performs).trans (rewrap_eq_ok.mp read)
    rw [knows.1] at found
    exact eq_of_read found
  refine .given (fun _ _ known => known.2) fun found => ?_
  subst found
  obtain ⟨recorded, authorizes⟩ := recovers receipt rfl
  refine .strengthen ?_ fun _ _ known => known.1
  refine .bind (safe_quiet (only_request trivial)) fun _ => ?_
  refine .bind (safe_quiet (only_request trivial)) fun _ => ?_
  refine .bind (safe_boundVideo authorizes) fun videoId => ?_
  refine .bind (safe_quiet (only_readback ..)) fun remote => ?_
  refine .check fun _ => ?_
  exact .bind (safe_published authorizes) fun _ _ _ _ => trivial

def PublicationAuthorization.Names (authorization : PublicationAuthorization) (call : Call)
    (metadataSha256 : String) : Prop :=
  authorization.videoSha256 = call.video.artifactSha256 ∧
    authorization.thumbnailSha256 = call.thumbnail.artifactSha256 ∧
    authorization.metadataSha256 = metadataSha256

theorem safe_requirePublicationAuthorization (metadataSha256 : String) :
    (binding call pid before).Safe pid (Knows node events)
    (requirePublicationAuthorization call.command call.expectedCommand call.video call.thumbnail metadataSha256)
    (fun authorization s => Knows node events s ∧ authorization.Names call metadataSha256) fun _ _ => True := by
  refine .check fun _ => ?_
  refine .check fun _ => ?_
  refine .check fun _ => ?_
  refine .bind (safe_quiet (only_request trivial)) fun _ => ?_
  refine .bind (safe_quiet (only_request trivial)) fun _ => ?_
  refine .bind (safe_quiet (only_act trivial)) fun now => ?_
  exact fun _ _ knows => ⟨knows, rfl, rfl, rfl⟩

theorem safe_authorize (state : EpisodeStateStore) : (binding call pid before).Safe pid (Knows node [])
    (call.authorize state) (fun checked s => Knows node [readDigest call pid checked.2.1]
    s ∧ checked.2.2.Names call checked.2.1) fun _ _ => True := by
  refine .check fun _ => ?_
  refine .bind (safe_quiet (only_act trivial)) fun there => ?_
  refine .check fun _ => ?_
  refine .bind (safe_quiet (only_request trivial)) fun metadata => ?_
  refine .check fun _ => ?_
  refine .bind (safe_quiet (only_act trivial)) fun recorded => ?_
  refine .check fun _ => ?_
  refine .bind safe_sha256 fun metadataSha256 => ?_
  refine (safe_requirePublicationAuthorization metadataSha256).attempt_bind (fun authorization => ?_) fun e => ?_
  · exact fun _ _ => id
  · exact fun _ _ _ => trivial

theorem safe_writeReceipt (authorizes : Authorizes receipt call metadataSha256) : (binding call pid before).Safe pid
    (Knows node [readDigest call pid metadataSha256]) (request (.writeReceipt receipt) id : Program
    Unit) (fun _ => Knows (some (.file (.ok receipt))) [readDigest call pid metadataSha256]) fun _ _ => True := by
  refine .request (fun _ _ knows => ⟨rfl, metadataSha256, authorizes, knows.2 _ (.head _)⟩)
    (fun _ => stable_alone _) (fun _ => .true) ?_ fun _ _ _ _ _ _ _ _ _ => trivial
  rintro r ⟨⟩ s s' rfl _ knows performs _
  rcases receipt_of_performs performs with ⟨-, wrong⟩ | ⟨_, ⟨⟩, -, is⟩
  · cases wrong
  · refine ⟨is, fun e member => ?_⟩
    rw [performs.choose_spec.2]
    exact .tail _ (knows.2 e member)

variable {authorization : PublicationAuthorization}

theorem authorizes_record (call : Call) (remote : Json) (videoId videoUrl metadataPath : String) (names : authorization.Names call metadataSha256) :
    Authorizes (.obj [("authorization", authorization.asdict),
      ("video_path", .str call.video.artifactPath),
      ("thumbnail_path", .str call.thumbnail.artifactPath), ("metadata_path", .str metadataPath),
      ("metadata_sha256", .str metadataSha256), ("video_id", .str videoId),
      ("video_url", .str videoUrl), ("readback", remote)]) call metadataSha256 := by
  obtain ⟨video, thumbnail, metadata⟩ := names
  refine ⟨_, _, rfl, rfl, rfl, ?_, ?_, ?_⟩
  · rw [← video]
    rfl
  · rw [← thumbnail]
    rfl
  · rw [← metadata]
    rfl

theorem safe_upload_binds {metadata : Json} {captions : String} (names : authorization.Names call metadataSha256) :
    (binding call pid before).Obeys pid (Knows node [readDigest call pid metadataSha256])
    (call.upload state metadata metadataSha256 captions authorization) := by
  refine .bind (Q := fun _ => Knows node [readDigest call pid metadataSha256]) ?_ fun result => ?_
  · refine .request (fun _ _ _ => ⟨rfl, trivial⟩) (fun _ => stable_alone _)
      (fun _ => .true) ?_ fun _ _ _ _ _ _ _ _ _ => trivial
    intro r _ s s' _ _ knows performs _
    rcases receipt_of_performs performs with ⟨same, -⟩ | ⟨_, wrong, -⟩
    · exact Knows.later knows same performs
    · cases wrong
  refine .check fun _ => ?_
  refine .bind (safe_quiet (only_readback ..)) fun remote => ?_
  refine .check fun _ => ?_
  refine .bind (safe_quiet (only_act trivial)) fun metadataPath => ?_
  have authorizes := authorizes_record call remote result.videoId result.videoUrl metadataPath names
  refine .bind (Q := fun _ => Knows _ [readDigest call pid metadataSha256])
    (safe_writeReceipt authorizes) fun _ => ?_
  refine .bind (safe_quiet (only_request trivial)) fun persisted => ?_
  refine .check fun _ => ?_
  exact .bind (safe_published authorizes) fun _ _ _ _ => trivial

theorem uploading_of_recorded : (binding call pid before).Safe pid (Knows node []) (Call.recorded state)
    (fun recorded s => Knows node [] s ∧ (recorded = true → state.currentState = .uploading)) fun _ _ => True := by
  unfold Call.recorded
  split
  · rename_i uploading
    exact (safe_quiet (only_act (by trivial))).weaken (fun _ _ knows => ⟨knows, fun _ => uploading⟩) fun _ _ _ => trivial
  · exact fun _ _ knows => ⟨knows, nofun⟩

theorem load_of_performs {r : Result EpisodeStateStore}
    (performs : Performs (M := machine) pid .load r s s') : ∃ now, load s.world.state now = r := by
  obtain ⟨oracle, executed, -⟩ := performs
  change some (s.world, load s.world.state oracle.now) = some (s'.world, r) at executed
  rw [some.injEq, Prod.mk.injEq] at executed
  exact ⟨oracle.now, executed.2⟩

theorem safe_load {w : World} : (binding call pid w.receipt).Safe pid (fun s => s.world = w)
    (request .load id : Program EpisodeStateStore)
    (fun state s => Knows w.receipt [] s ∧ ∃ now, load w.state now = .ok state) fun _ _ => True := by
  refine .request (fun _ _ _ => ⟨rfl, trivial⟩) (fun _ => stable_alone _)
    (fun _ => .true) ?_ fun _ _ _ _ _ _ _ _ _ => trivial
  intro r state s s' read _ same performs _
  obtain ⟨now, loaded⟩ := load_of_performs performs
  rw [same] at loaded
  have receipt := receipt_of_quiet performs trivial
  rw [same] at receipt
  exact ⟨⟨receipt, List.forall_mem_nil _⟩, now, loaded.trans read⟩

end Conduct

/-! ## One call after the other -/

def World.Uploading (w : World) : Prop :=
  ∃ now store, load w.state now = .ok store ∧ store.currentState = .uploading

variable {w : World} {call : Call} {pid : ℕ}

theorem safe_publish_binds (recovers : w.Uploading → ∀ receipt, w.receipt = some (.file (.ok receipt)) → ∃ recorded,
    Authorizes receipt call recorded) : (binding call pid w.receipt).Obeys pid (fun s => s.world = w) call.publish := by
  refine .bind safe_load fun state => ?_
  refine .given (fun _ _ known => known.2) fun loaded => ?_
  refine .strengthen ?_ fun _ _ known => known.1
  refine .bind uploading_of_recorded fun recorded => ?_
  refine .given (fun _ _ known => known.2) fun uploading => ?_
  refine .strengthen ?_ fun _ _ known => known.1
  cases recorded with
  | true =>
    obtain ⟨now, is⟩ := loaded
    exact safe_recover state (recovers ⟨now, state, is, uploading rfl⟩)
  | false =>
    refine .bind (safe_authorize state) fun checked => ?_
    refine .given (fun _ _ known => known.2) fun names => ?_
    refine .strengthen ?_ fun _ _ known => known.1
    refine .bind (safe_quiet (only_captions call)) fun captions => ?_
    refine .bind safe_uploading fun next => ?_
    exact safe_upload_binds names

/-- A call that finds an upload in progress is passed approvals of the same bytes as the call that
wrote the receipt. -/
def SameMedia (w : World) (writer : Option Call) (call : Call) : Prop :=
  w.Uploading → ∀ earlier, writer = some earlier →
    call.video.artifactSha256 = earlier.video.artifactSha256 ∧
      call.thumbnail.artifactSha256 = earlier.thumbnail.artifactSha256

/-- Calls one after the other, each ended or dead at some point, and the call that wrote the receipt.
Between two calls everything but the contents of the receipt may change. -/
inductive History : World → Option Call → Prop
  | start {w : World} (unpublished : w.receipt = none) : History w none
  | edited {w : World} {writer : Option Call} (history : History w writer) (state : Option Node) :
      History { w with state := state } writer
  | removed {w : World} {writer : Option Call} (history : History w writer) :
      History { w with receipt := none } none
  | called {w : World} {writer : Option Call} {call : Call} {pid : ℕ} {s' : Shared machine}
      (history : History w writer) (same : SameMedia w writer call)
      (runs : call.publish.Runs pid ⟨w, []⟩ s') :
      History s'.world (if s'.trace.any wroteReceipt then some call else writer)

def Recorded (w : World) (writer : Option Call) : Prop :=
  w.receipt = none ∨ ∃ call receipt recorded, writer = some call ∧
    w.receipt = some (.file (.ok receipt)) ∧ Authorizes receipt call recorded

variable {writer : Option Call}

theorem BindingInv.of_runs {s' : Shared machine} (recorded : Recorded w writer) (same : SameMedia w writer call)
    (runs : call.publish.Runs pid ⟨w, []⟩ s') : BindingInv call pid w.receipt s' := by
  have start : BindingInv call pid w.receipt ⟨w, []⟩ := ⟨fun _ => rfl, nofun, nofun⟩
  refine (safe_publish_binds ?_).runs start rfl runs
  intro uploading receipt is
  rcases recorded with none | ⟨earlier, _, m, wrote, there, dict, authorization, rest⟩
  · rw [none] at is
    cases is
  · rw [there] at is
    cases is
    obtain ⟨video, thumbnail⟩ := same uploading earlier wrote
    refine ⟨m, dict, authorization, ?_⟩
    rw [video, thumbnail]
    exact rest

theorem Recorded.of_history (history : History w writer) : Recorded w writer := by
  induction history with
  | start unpublished => exact .inl unpublished
  | edited _ _ ih => exact ih
  | removed => exact .inl rfl
  | @called w writer call pid s' _ same runs ih =>
    have inv := BindingInv.of_runs ih same runs
    cases wrote : s'.trace.any wroteReceipt with
    | true =>
      obtain ⟨receipt, m, is, authorizes, -⟩ := inv.recorded wrote
      exact .inr ⟨call, receipt, m, rfl, is, authorizes⟩
    | false =>
      rw [Recorded, inv.kept wrote]
      exact ih

/-- If every call that finds an upload in progress is passed approvals of the bytes that were
recorded, then whoever moves the episode to `PUBLISHED` leaves a receipt that carries the hashes of
its own approvals and of its metadata. -/
theorem published_binds {w : World} {writer : Option Call}
    (history : History w writer) {call : Call} (same : SameMedia w writer call) {pid : ℕ} {s' : Shared machine}
    (runs : call.publish.Runs pid ⟨w, []⟩ s') (published : s'.trace.any publishes = true) : Bound call pid s' :=
  (BindingInv.of_runs (.of_history history) same runs).published published

/-! ## Samples -/

def afterCrash (next : Call) (hash : String) : Option (Shared machine × Shared machine) :=
  (sampleCall.publish.runFor sampleOracle 0 15 ⟨sampleWaiting, []⟩).bind fun first =>
    (next.publish.runFor { sampleOracle with look := .ok (some hash) } 0 10 ⟨first.world, []⟩).map
      fun second => (first, second)

theorem sampleWaiting_not_uploading : ¬ sampleWaiting.Uploading := by
  rintro ⟨now, store, loaded, uploading⟩
  rw [currentState_of_load loaded] at uploading
  cases uploading

theorem exists_history_of_afterCrash {next : Call} {hash : String} (test : Shared machine → Bool)
    (passed : (afterCrash next hash).any (fun pair => pair.1.trace.any wroteReceipt && test pair.2) = true) :
    ∃ w s', History w (some sampleCall) ∧ next.publish.Runs 0 ⟨w, []⟩ s' ∧ test s' = true := by
  simp only [afterCrash, any_eq_true, bind_eq_some_iff, map_eq_some_iff,
    and_eq_true] at passed
  obtain ⟨_, ⟨first, ran, second, ranNext, rfl⟩, wrote, tested⟩ := passed
  have history : History first.world (some sampleCall) := by
    have called := History.called (.start rfl)
      (fun uploading => absurd uploading sampleWaiting_not_uploading) (runs_of_runFor ran)
    rw [if_pos wrote] at called
    exact called
  exact ⟨first.world, second, history, runs_of_runFor ranNext, tested⟩

theorem recovered_binds : ∃ w s', History w (some sampleCall)
    ∧ sampleCall.publish.Runs 0 ⟨w, []⟩ s' ∧ s'.trace.any publishes = true ∧ Bound sampleCall 0 s' := by
  have passed : (afterCrash sampleCall "hash").any (fun pair =>
      pair.1.trace.any wroteReceipt && pair.2.trace.any publishes) = true := by
    decide
  obtain ⟨w, s', history, runs, published⟩ :=
    exists_history_of_afterCrash (fun s => s.trace.any publishes) passed
  refine ⟨w, s', history, runs, published, published_binds history ?_ runs published⟩
  rintro - earlier ⟨⟩
  exact ⟨rfl, rfl⟩

def approvedAnew : Call :=
  { sampleCall with
    video := ⟨"video", "video.mp4", "other", "human", "later", none⟩
    thumbnail := ⟨"thumbnail", "thumbnail.png", "other", "human", "later", none⟩ }

def authorizedVideo (w : World) : Option Json := do
  let receipt ← (read w.receipt).toOption
  let authorization ← get (← entries receipt) "authorization"
  get (← entries authorization) "video_sha256"

theorem Bound.authorizedVideo {s : Shared machine} (bound : Bound call pid s) :
    authorizedVideo s.world = some (.str call.video.artifactSha256) := by
  obtain ⟨_, _, is, ⟨dict, authorization, rfl, -, authorized, video, -⟩, -⟩ := bound
  simp [Publishing.authorizedVideo, is, Node.read, Except.toOption, entries, authorized, video]

theorem recovered_with_other_media : ∃ w s', History w (some sampleCall)
    ∧ approvedAnew.publish.Runs 0 ⟨w, []⟩ s' ∧ s'.trace.any publishes = true ∧ ¬ Bound approvedAnew 0 s' := by
  have passed : (afterCrash approvedAnew "other").any (fun pair => pair.1.trace.any wroteReceipt &&
      (pair.2.trace.any publishes && decide (authorizedVideo pair.2.world = some (.str "hash")))) = true := by
    decide
  obtain ⟨w, s', history, runs, tested⟩ := exists_history_of_afterCrash (fun s =>
    s.trace.any publishes && decide (authorizedVideo s.world = some (.str "hash"))) passed
  obtain ⟨published, recorded⟩ := and_eq_true_iff.mp tested
  refine ⟨w, s', history, runs, published, fun bound => ?_⟩
  have same := (of_decide_eq_true recorded).symm.trans bound.authorizedVideo
  revert same
  decide

end VideoPoster.Publishing
