import VideoPoster.Hero.Turns

/-!
# The calls of a hero request follow the discipline
-/

namespace VideoPoster.Hero
open Python Interleaving Program Kept Option Protocol.Safe And

variable {P : Provider} {pid : ℕ} {id : String} {state : Checkpoint} {α : Type}

/-! ## Cancellation -/

def Holds (state : Checkpoint) (w : World) : Prop := w.checkpoint = some state

def Caught (P : Provider) (pid : ℕ) (id : String) : Assertion (carefulMachine P) := In P pid (Bound id) anyTrace

variable {T : List (Event actions) → Prop}

variable {s : Shared (carefulMachine P)}

theorem Caught.of_holds (named : state.providerId = id) (holds : In P pid (Holds state) T s) : Caught P pid id s :=
  ⟨holds.1, ⟨state, holds.2.1, named⟩, trivial⟩

variable {K : World → Prop}

theorem Caught.of_copied (holds : In P pid (fun w => Copied P id state w ∧ K w) T s) : Caught P pid id s :=
  ⟨holds.1, holds.2.1.1.bound, trivial⟩

variable {new : Checkpoint}

theorem replaces_claimed {copy : Checkpoint} (valid : validId id = true) (inv : Inv P s) (copied : Copied P
    id copy s.world) (claims : copy.cancelClaimed = true) (same : new = copy ∨ new = { copy with status := .cancelled })
    (nonfinal : ¬ copy.status.Final) : ∃ file, s.world.checkpoint = some file ∧ Replaces P pid s file new := by
  obtain ⟨file, found, named, claimed, -⟩ := copied.file
  have known := ne_of_validId valid
  have sane := inv.file file found
  have result (has : copy.resultPath ≠ "") := copied.result has
  refine ⟨file, found, fun absent => absurd (named.symm.trans absent) known, fun _ => ?_, fun _ => ?_,
    fun final => absurd final (sane.claimed (claimed claims)), ?_⟩
  · rcases same with rfl | rfl <;> exact copied.named.trans named.symm
  · rcases same with rfl | rfl <;> exact claims
  · rcases same with rfl | rfl
    · exact ⟨fun _ => nonfinal, .inr (copied.named.symm ▸ valid), fun absent => absurd (copied.named.symm.trans absent) known,
        result⟩
    · refine ⟨fun _ => by simp [Status.Final], .inr (copied.named.symm ▸ valid),
        fun absent => absurd (copied.named.symm.trans absent) known, fun has => ?_⟩
      obtain ⟨path, valid, output, cost⟩ := result has
      exact ⟨path, valid, output, cost⟩

theorem safe_carryOut {claimed : Checkpoint} {next : Result Unit → Program Unit} (valid : validId id = true)
    (named : claimed.providerId = id) (claims : claimed.cancelClaimed = true) (running : ¬ claimed.status.Final)
    (failed : ∀ error, next (.error error) = (save claimed).bind fun _ => .raise error) (stopped : next (.ok ())
    = save { claimed with status := .cancelled }) : (discipline P).Safe pid (In P pid (Holds claimed) anyTrace)
    ((awaiting (.cancel claimed.providerId)).bind next) (fun _ => Caught P pid id) fun _ => Caught P pid id := by
  refine .strengthen (L := In P pid (Copied P id claimed) anyTrace) ?_ fun s inv holds =>
    ⟨holds.1, .of_checkpoint inv holds.2.1 named, trivial⟩
  refine safe_awaiting (.copied valid) .any trivial (fun _ => trivial) fun answer => ?_
  have kept : Kept fun trace => anyTrace trace ∧ (⟨pid, .cancel claimed.providerId, answer⟩ : Event actions) ∈ trace :=
    fun _ _ holds => ⟨trivial, .tail _ holds.2⟩
  cases answer with
  | error error =>
    rw [failed]
    refine safe_save kept (fun s inv holds => replaces_claimed valid inv holds.2.1.1 claims (.inl rfl) running) ?_ ?_
    · exact fun s _ holds => .of_holds named holds
    · exact fun _ _ _ _ holds => .of_copied holds
  | ok done =>
    rw [stopped, ← Prog.bind_pure (save _)]
    refine safe_save kept (fun s inv holds => replaces_claimed valid inv holds.2.1.1 claims (.inr rfl) running) ?_ ?_
    · exact fun s _ holds => ⟨holds.1, ⟨_, holds.2.1, named⟩, trivial⟩
    · exact fun _ _ _ _ holds => .of_copied holds

theorem safe_cancelOnce (valid : validId id = true) (state : Checkpoint) (reason : String) : (discipline P).Safe
    pid (Caught P pid id) (cancelOnce state reason) (fun _ => Caught P pid id) fun _ => Caught P pid id := by
  have known := ne_of_validId valid
  refine safe_load .any fun found nonfinal => ?_
  refine safe_given (∃ file, found = some file ∧ file.providerId = id) (fun s _ holds => ?_) ?_
  · obtain ⟨file, there, named⟩ := holds.2.1.1
    exact ⟨file, holds.2.1.2.symm.trans there, named⟩
  rintro ⟨file, rfl, named⟩
  have running := nonfinal rfl file rfl
  refine .strengthen (L := In P pid (Holds file) anyTrace) ?_ fun s _ holds => ⟨holds.1, holds.2.1.2, trivial⟩
  show (discipline P).Safe pid _ (if file.status = .cancelled then _ else _) _ _
  split_ifs with done claims
  · exact fun s _ holds => .of_holds named holds
  · simp only [getD_some]
    exact safe_carryOut valid named claims running (fun _ => rfl) rfl
  · simp only [getD_some]
    refine safe_save .any (fun s inv holds => ?_) ?_ fun _ _ _ _ holds => .of_holds named holds
    · have sane := inv.file file holds.2.1
      refine ⟨file, holds.2.1, fun absent => absurd (named.symm.trans absent) known, fun _ => rfl, fun _ => rfl,
        fun final => absurd final running, fun _ => running, sane.named, sane.started, fun has => ?_⟩
      obtain ⟨path, valid, output, cost⟩ := sane.result has
      exact ⟨path, valid, output, cost⟩
    · exact @safe_carryOut P pid id { file with cancelClaimed := true, terminalReason := reason } _ valid named rfl running
        (fun _ => rfl) rfl

variable {L : Assertion (carefulMachine P)} {Q : α → Assertion (carefulMachine P)}

theorem safe_guarded {body : Program α} (valid : validId id = true) (safe : (discipline P).Safe
    pid L body Q fun _ => Caught P pid id) : (discipline P).Safe pid L (guarded state body) Q fun _ _ => True := by
  refine .attempt_bind safe (fun value => fun _ _ holds => holds) fun error => ?_
  dsimp only
  split_ifs
  · refine safe_awaiting (.bound valid) .any trivial (fun _ => trivial) fun _ => ?_
    refine .bind (Q := fun _ => Caught P pid id) ?_ fun _ _ _ _ => trivial
    refine (safe_cancelOnce valid state "CALLER_CANCELLED").consequence ?_ (fun _ _ holds => holds) fun _ _ _ => trivial
    exact fun s _ holds => ⟨holds.1, holds.2.1.1, trivial⟩
  · exact fun _ _ _ => trivial

theorem safe_timeOut (valid : validId id = true) :
    (discipline P).Safe pid (Caught P pid id) (timeOut state : Program α) Q fun _ => Caught P pid id :=
  bind (safe_cancelOnce valid state "TIMEOUT") fun _ _ _ holds => holds

theorem safe_guarded_timeOut (valid : validId id = true) (caught : ∀ s, Inv P s → L s → Caught P pid id s) :
    (discipline P).Safe pid L (guarded state (timeOut state : Program α)) Q fun _ _ => True :=
  safe_guarded valid ((safe_timeOut valid).strengthen caught)

theorem safe_timesOut (valid : validId id = true) (caught : ∀ s, Inv P s → L s → Caught P pid id s) :
    (discipline P).Safe pid L (timeOut state : Program α) Q fun _ _ => True :=
  (safe_timeOut (Q := Q) valid).consequence caught (fun _ _ holds => holds) fun _ _ _ => trivial

/-! ## Completion -/

section Completion
variable {job : Job} {response : Json} {expected : String}

theorem Copied.linked {w : World} {sha256 : String} (copied : Copied P id state w) (absent : w.output = .absent) :
    Copied P id state { w with output := .regular sha256 } :=
  ⟨copied.named, copied.file, fun has => nomatch (copied.result has).output.symm.trans absent⟩

def Refuses (P : Provider) (pid : ℕ) (id : String) (state : Checkpoint) (error : Error) : Assertion (carefulMachine P) :=
  In P pid (Copied P id state) fun trace => error.kind = .valueError → Refuted P pid trace

def Placed (P : Provider) (id : String) (state : Checkpoint) (expected : String) (w : World) : Prop :=
  Copied P id state w ∧ w.output = .regular expected

theorem Refuses.of_in {error : Error} (holds : In P pid K T s) (copied : K s.world → Copied P id state s.world)
    (refuted : T s.trace → error.kind = .valueError → Refuted P pid s.trace) : Refuses P pid id state error s :=
  ⟨holds.1, copied holds.2.1, refuted holds.2.2⟩

variable {url : String}

theorem materialize_safe (valid : validId id = true) :
    (discipline P).Safe pid (In P pid (Copied P id state) (Heard P pid response)) (materialize url expected)
      (fun _ => In P pid (Placed P id state expected) (Heard P pid response)) (Refuses P pid id state) := by
  refine safe_awaiting (.copied valid) .heard trivial (fun _ => trivial) fun answer => ?_
  have kept : Kept fun trace => Heard P pid response trace ∧
      (⟨pid, .download url expected, answer⟩ : Event actions) ∈ trace :=
    fun _ _ holds => ⟨heard _ _ holds.1, .tail _ holds.2⟩
  refine safe_given (NoValueError answer) (fun s _ holds => holds.2.1.2.choose_spec) fun fine => ?_
  cases answer with
  | error error => exact fun s _ holds => .of_in holds left fun _ is => absurd is (fine error rfl)
  | ok content =>
    refine safe_require (fun same => ?_) fun other s _ holds => .of_in holds left fun trace _ =>
      ⟨_, trace.2, rfl, .download pid url expected content other⟩
    refine safe_link kept (fun w holds absent => ⟨holds.1.linked absent, holds.2⟩) ?_ ?_ fun error fine => ?_
    · exact fun s _ holds => ⟨holds.1, ⟨holds.2.1.1.1, holds.2.1.2⟩, holds.2.2.1⟩
    · refine safe_look kept fun found fits => ?_
      refine safe_given (found = .regular expected) (fun s _ holds => ?_) ?_
      · exact fits.resolve_left fun absent => holds.2.1.1.2 (holds.2.1.2.trans absent)
      · rintro rfl
        show (discipline P).Safe pid _ (ofResult (require (some expected = some expected) _)) _ _
        rw [require, if_pos rfl]
        exact fun s _ holds => ⟨holds.1, ⟨holds.2.1.1.1.1, holds.2.1.2⟩, holds.2.2.1⟩
    · exact fun s _ holds => .of_in holds left fun _ is => absurd is fine

theorem actualCost_ok {cost : Decimal} (priced : actualCost P job response = .ok cost) :
    cost.isFinite = true ∧ 0 ≤ cost.toRat := by
  have fair {value : Decimal} (is : money value = .ok cost) : cost.isFinite = true ∧ 0 ≤ cost.toRat := by
    obtain ⟨⟨⟩, fair, same⟩ := bind_eq_ok.mp is
    cases pure_eq_ok.mp same
    exact require_eq_ok.mp fair
  unfold actualCost at priced
  split at priced
  · split at priced
    · obtain ⟨value, -, is⟩ := bind_eq_ok.mp priced
      exact fair is
    · exact fair priced
  · exact fair priced

theorem declared_ok (is : declared P response = .ok (url, expected)) : validSha256 expected = true := by
  unfold declared at is
  split at is
  · split at is
    · obtain ⟨⟨⟩, -, is⟩ := bind_eq_ok.mp is
      split at is
      · obtain ⟨⟨⟩, -, is⟩ := bind_eq_ok.mp is
        obtain ⟨⟨⟩, valid, same⟩ := bind_eq_ok.mp is
        cases pure_eq_ok.mp same
        exact require_eq_ok.mp valid
      · cases is
    · cases is
  · cases is

variable (valid : validId id = true)
include valid

theorem replaces_final (inv : Inv P s)
    (copied : Copied P id state s.world) (done : state.status.Final) (named : new.providerId = id)
    (final : new.status = .completed ∨ new.status = .failed ∧ Refuted P pid s.trace)
    (claims : new.cancelClaimed = state.cancelClaimed) (result : new.resultPath ≠ "" → Stored P s.world.output new) :
    ∃ file, s.world.checkpoint = some file ∧ Replaces P pid s file new := by
  obtain ⟨file, found, same, claimed, stays⟩ := copied.file
  have known := ne_of_validId valid
  have unclaimed (is : file.cancelClaimed = true) : False := (inv.file file found).claimed is (stays done)
  refine ⟨file, found, fun absent => absurd (same.symm.trans absent) known, fun _ => named.trans same.symm,
    fun is => (unclaimed is).elim, fun _ => ?_, ?_⟩
  · exact final.imp_right fun failed => ⟨failed.1, .inr failed.2⟩
  · exact ⟨fun is => (unclaimed (claimed (claims.symm.trans is))).elim, .inr (named.symm ▸ valid),
      fun absent => absurd (named.symm.trans absent) known, result⟩

theorem safe_complete (named : state.providerId = id) (done : state.status = .completed) :
    (discipline P).Safe pid (In P pid (Holds state) (Heard P pid response)) (complete P job state response)
      (fun _ _ => True) (Refuses P pid id state) := by
  refine .strengthen (L := In P pid (Copied P id state) (Heard P pid response)) ?_ fun s inv holds =>
    ⟨holds.1, .of_checkpoint inv holds.2.1 named, holds.2.2⟩
  refine .ofExcept_bind (fun output is => ?_) fun error malformed s _ holds =>
    .of_in holds (fun copied => copied) fun heard _ => ?_
  · obtain ⟨url, expected⟩ := output
    have finishes : (discipline P).Safe pid (In P pid (Placed P id state expected) (Heard P pid response))
        ((ofResult (actualCost P job response)).bind fun cost => (save { state with
          status := .completed, resultPath := P.target, resultSha256 := expected, actualCost := P.text cost }).bind fun _ =>
            .pure (⟨P.target, expected, cost⟩ : Delivered)) (fun _ _ => True) (Refuses P pid id state) := by
      refine .ofExcept_bind (fun cost priced => ?_) fun error failed s _ holds =>
        .of_in holds left fun heard is => ?_
      · obtain ⟨finite, nonnegative⟩ := actualCost_ok priced
        refine safe_save .heard (fun s inv holds => ?_) (fun _ _ _ => trivial) fun error s fine _ holds =>
          .of_in holds left fun _ is => absurd is fine
        exact replaces_final valid inv holds.2.1.1 (.inl done) holds.2.1.1.named (.inl rfl) rfl fun _ =>
          ⟨rfl, declared_ok is, holds.2.1.2, cost, rfl, finite, nonnegative⟩
      · obtain ⟨priced, e, -, -, tells⟩ := heard
        cases tells with
        | submit _ id completed => exact absurd is (priced id completed job error failed)
        | status _ _ id completed => exact absurd is (priced id completed job error failed)
    refine safe_look .heard fun found fits => ?_
    rcases fits with rfl | rfl
    · show (discipline P).Safe pid _ ((materialize url expected).bind _) _ _
      refine .bind ((materialize_safe valid).strengthen fun s _ holds => ?_) fun _ => finishes
      exact ⟨holds.1, holds.2.1.1, holds.2.2⟩
    · show (discipline P).Safe pid _ ((ofResult (require (expected = expected) _)).bind _) _ _
      exact safe_require (fun _ => finishes.strengthen fun s _ holds => holds) fun other => absurd rfl other
  · obtain ⟨priced, e, member, own, tells⟩ := heard
    exact ⟨e, member, own, .declared tells malformed⟩

theorem safe_completeOrFail (named : state.providerId = id)
    (done : state.status = .completed) : (discipline P).Safe pid (In P pid (Holds state) (Heard P pid response))
    (completeOrFail P job state response) (fun _ _ => True) fun _ => Caught P pid id := by
  refine .attempt_bind (safe_complete valid named done) (fun _ _ _ _ => trivial) fun error => ?_
  have kept : Kept fun trace => error.kind = .valueError → Refuted P pid trace := by
    rintro e trace refuted is
    obtain ⟨e', member, own, refutes⟩ := refuted is
    exact ⟨e', .tail _ member, own, refutes⟩
  dsimp only
  split_ifs with is
  · refine safe_save kept (fun s inv holds => ?_) (fun s _ holds => ⟨holds.1, ⟨_, holds.2.1, named⟩, trivial⟩)
      fun _ s _ _ holds => ⟨holds.1, holds.2.1.bound, trivial⟩
    refine replaces_final valid inv holds.2.1 (.inl done) holds.2.1.named (.inr ⟨rfl, holds.2.2 is⟩) rfl fun has => ?_
    obtain ⟨path, valid, output, cost⟩ := holds.2.1.result has
    exact ⟨path, valid, output, cost⟩
  · exact fun s _ holds => ⟨holds.1, holds.2.1.bound, trivial⟩

end Completion

/-! ## Polling -/

section Polling
variable {job : Job} {response : Json}

def Told (P : Provider) (pid : ℕ) (response : Json) (trace : List (Event actions)) : Prop :=
  ∀ id, parseStatus response id = .ok .completed → Heard P pid response trace

theorem Kept.told : Kept (Told P pid response) := fun e trace told id completed => heard e trace (told id completed)

def Running (P : Provider) (pid : ℕ) (id : String) (response : Json) : Assertion (carefulMachine P) := fun s =>
  s.world.turn = some pid ∧ ∃ file, s.world.checkpoint = some file ∧ file.providerId = id ∧
    (file.status = .completed → Heard P pid response s.trace)

variable {E : Error → Assertion (carefulMachine P)}

theorem safe_status {asked : String} {next : Result Json → Program α} (valid : validId id = true)
    (ok : ∀ response, (discipline P).Safe pid (In P pid (fun w => Copied P id state w ∧ Agrees w.checkpoint response)
    (Told P pid response)) (next (.ok response)) Q E)
    (failed : ∀ error, (discipline P).Safe pid (In P pid (Copied P id state) anyTrace) (next (.error error)) Q E) :
    (discipline P).Safe pid (In P pid (Copied P id state) anyTrace) ((awaiting (.status asked)).bind next) Q E := by
  refine safe_awaiting (.copied valid) .any trivial (fun _ => trivial) fun answer => ?_
  cases answer with
  | error error => exact (failed error).strengthen fun s _ holds => ⟨holds.1, holds.2.1.1, trivial⟩
  | ok response =>
    refine (ok response).strengthen fun s _ holds => ?_
    obtain ⟨turn, ⟨copied, _, careful⟩, -, member⟩ := holds
    obtain ⟨priced, agrees⟩ := careful response rfl
    exact ⟨turn, ⟨copied, agrees⟩, fun id completed => ⟨priced, _, member, rfl, .status pid asked id completed⟩⟩

variable {latest : Checkpoint}

variable {status : Status}

theorem replaces_recorded (valid : validId id = true) (copied : Copied P id state s.world)
    (found : s.world.checkpoint = some latest) (unclaimed : ¬ latest.cancelClaimed = true)
    (agrees : Agrees s.world.checkpoint response) (parsed : parseStatus response id = .ok status) :
    ∃ file, s.world.checkpoint = some file ∧ Replaces P pid s file (recorded state status) := by
  obtain ⟨file, there, named, claimed, -⟩ := copied.file
  cases there.symm.trans found
  have known := ne_of_validId valid
  refine ⟨latest, found, fun absent => absurd (named.symm.trans absent) known, fun _ => copied.named.trans named.symm,
    fun is => absurd is unclaimed, fun final => ?_, fun is => absurd (claimed is) unclaimed, .inr (copied.named.symm ▸ valid),
    fun absent => absurd (copied.named.symm.trans absent) known, fun has => ?_⟩
  · rcases agrees latest found final status (named.symm ▸ parsed) with same | completed
    · rcases final with completed | failed
      · exact .inl (same.trans completed)
      · exact .inr ⟨same.trans failed, .inl failed⟩
    · exact .inl completed
  · obtain ⟨path, valid, output, cost⟩ := copied.result has
    exact ⟨path, valid, output, cost⟩

theorem Running.of_recorded (named : state.providerId = id) (parsed : parseStatus response id = .ok status)
    (holds : In P pid (Holds (recorded state status)) (Told P pid response) s) : Running P pid id response s := by
  refine ⟨holds.1, _, holds.2.1, named, fun completed => holds.2.2 id ?_⟩
  rw [parsed]
  exact congrArg Except.ok completed

theorem Running.of_claimed (inv : Inv P s) (turn : s.world.turn = some pid) (found : s.world.checkpoint = some latest)
    (named : latest.providerId = id) (claims : latest.cancelClaimed = true) : Running P pid id response s :=
  ⟨turn, latest, found, named, fun completed => absurd (.inl completed) ((inv.file latest found).claimed claims)⟩

theorem safe_reload {next : Option Checkpoint → Program α} (kept : Kept T) (bound : ∀ w, K w → Bound id w) (rest :
    ∀ latest, latest.providerId = id → (discipline P).Safe pid (In P pid (fun w => K w ∧ w.checkpoint = some latest) T)
    (next (some latest)) Q E) : (discipline P).Safe pid (In P pid K T) ((perform (.load .other)).bind next) Q E := by
  refine safe_load kept fun found _ => ?_
  refine safe_given (∃ latest, found = some latest ∧ latest.providerId = id) (fun s _ holds => ?_) ?_
  · obtain ⟨latest, there, named⟩ := bound _ holds.2.1.1
    exact ⟨latest, holds.2.1.2.symm.trans there, named⟩
  · rintro ⟨latest, rfl, named⟩
    exact rest latest named

variable {delay : ℚ}

variable (valid : validId id = true)
include valid

section
variable (named : state.providerId = id)
include named

theorem safe_note (unclaimed : ¬ latest.cancelClaimed = true) : (discipline P).Safe pid (In P pid
    (fun w => (Copied P id state w ∧ Agrees w.checkpoint response) ∧ w.checkpoint = some latest) (Told P pid response))
    (poll.note P state delay response) (fun polled => Running P pid id polled.2.1) fun _ _ => True := by
  refine safe_time .told fun time => ?_
  split_ifs
  · exact safe_guarded_timeOut valid fun s _ holds => ⟨holds.1, holds.2.1.1.1.bound, trivial⟩
  · refine .ofExcept_bind (fun status parsed => ?_) fun _ _ _ _ _ => trivial
    rw [named] at parsed
    refine safe_save .told (fun s _ holds => ?_) (fun s _ holds => .of_recorded named parsed holds) fun _ _ _ _ _ => trivial
    exact replaces_recorded valid holds.2.1.1.1 holds.2.1.2 unclaimed holds.2.1.1.2 parsed

theorem safe_query {remaining : ℚ} : (discipline P).Safe pid (In P pid (Copied P id state) anyTrace)
    (poll.query P state delay remaining) (fun polled => Running P pid id polled.2.1) fun _ _ => True := by
  refine safe_time .any fun time => ?_
  split_ifs
  · exact safe_guarded_timeOut valid fun s _ holds => ⟨holds.1, holds.2.1.bound, trivial⟩
  · refine .bind (Q := fun response => In P pid (fun w => Copied P id state w ∧ Agrees w.checkpoint response)
      (Told P pid response)) ?_ fun response => ?_
    · refine safe_guarded valid (safe_status valid (fun response => fun _ _ holds => holds) fun error => ?_)
      have caught (s : Shared (carefulMachine P)) (holds : In P pid (Copied P id state) anyTrace s) : Caught P pid id s :=
        ⟨holds.1, holds.2.1.bound, trivial⟩
      dsimp only
      split_ifs
      · exact (safe_timeOut valid).strengthen fun s _ => caught s
      · exact fun s _ => caught s
    · refine safe_reload .told (fun w holds => holds.1.bound) fun latest same => ?_
      dsimp only
      split_ifs with claims
      · exact fun s inv holds => .of_claimed inv holds.1 holds.2.1.2 same claims
      · exact safe_note valid named claims

theorem safe_poll : (discipline P).Safe pid (In P pid (Holds
    state) anyTrace) (poll P state response delay) (fun polled => Running P pid id polled.2.1) fun _ _ => True := by
  refine .strengthen (L := In P pid (Copied P id state) anyTrace) ?_ fun s inv holds =>
    ⟨holds.1, .of_checkpoint inv holds.2.1 named, trivial⟩
  refine safe_time .any fun time => ?_
  dsimp only
  split_ifs
  · exact safe_guarded_timeOut valid fun s _ holds => ⟨holds.1, holds.2.1.bound, trivial⟩
  · refine .bind (Q := fun _ => In P pid (Copied P id state) anyTrace) ?_ fun _ => ?_
    · refine safe_guarded valid (safe_awaiting (.copied valid) .any trivial (fun _ => trivial) fun answer => ?_)
      cases answer with
      | ok slept => exact fun s _ holds => ⟨holds.1, holds.2.1.1, trivial⟩
      | error error => exact fun s _ holds => ⟨holds.1, holds.2.1.1.bound, trivial⟩
    · refine safe_reload .any (fun w holds => holds.bound) fun latest same => ?_
      dsimp only
      split_ifs with claims
      · exact fun s inv holds => .of_claimed inv holds.1 holds.2.1.2 same claims
      · exact (safe_query valid named).strengthen fun s _ holds => ⟨holds.1, holds.2.1.1, trivial⟩

end

theorem safe_drive (rounds : ℕ) (state : Checkpoint) (response : Json) (delay : ℚ) : (discipline P).Obeys
    pid (Running P pid id response) (drive P job rounds state response delay) := by
  induction rounds generalizing state response delay with
  | zero => exact fun _ _ _ => trivial
  | succ rounds ih =>
    refine .act (fun found => In P pid (fun w => w.checkpoint = found) fun trace =>
      ∃ file, found = some file ∧ file.providerId = id ∧ (file.status = .completed → Heard P pid response trace))
      (fun _ _ _ => trivial) (fun _ => stable_in) ?_ fun found => ?_
    · rintro found s s' - ⟨turn, file, there, named, heard⟩ performs -
      have done := done_of_performs performs
      obtain ⟨same, seen⟩ : s'.world = s.world ∧ found = s.world.checkpoint := done.effect
      refine ⟨by rw [same, turn], by rw [same, seen], file, seen.trans there, named, fun completed => ?_⟩
      rw [done.trace]
      exact Kept.heard _ _ (heard completed)
    · refine safe_given (∃ file, found = some file ∧ file.providerId = id) (fun s _ holds => ?_) ?_
      · obtain ⟨file, same, named, -⟩ := holds.2.2
        exact ⟨file, same, named⟩
      rintro ⟨file, rfl, named⟩
      have polls : (discipline P).Obeys pid (In P pid (Holds file) anyTrace) ((poll P file response delay).bind fun polled =>
          drive P job rounds polled.1 polled.2.1 polled.2.2) :=
        bind (safe_poll valid named) fun polled => ih polled.1 polled.2.1 polled.2.2
      have again : (discipline P).Obeys pid (In P pid (fun w => w.checkpoint = some file) fun trace => ∃ file',
          some file = some file' ∧ file'.providerId = id ∧ (file'.status = .completed → Heard P pid response trace))
          ((poll P file response delay).bind fun polled => drive P job rounds polled.1 polled.2.1 polled.2.2) :=
        polls.strengthen fun s _ holds => ⟨holds.1, holds.2.1, trivial⟩
      cases is : file.status with
      | completed =>
        simp only [Prog.bind, getD_some, is]
        refine safe_guarded valid ((safe_completeOrFail valid named is).strengthen fun s _ holds => ?_)
        obtain ⟨turn, there, _, ⟨⟩, -, heard⟩ := holds
        exact ⟨turn, there, heard is⟩
      | failed =>
        simp only [Prog.bind, getD_some, is]
        exact fun _ _ _ => trivial
      | cancelled =>
        simp only [Prog.bind, getD_some, is]
        exact fun _ _ _ => trivial
      | submitting =>
        simp only [Prog.bind, getD_some, is]
        exact again
      | inQueue =>
        simp only [Prog.bind, getD_some, is]
        exact again
      | running =>
        simp only [Prog.bind, getD_some, is]
        exact again

end Polling

/-! ## The calls -/

section Calls
variable {job : Job} {rounds : ℕ}

theorem safe_persistedResult (kept : Kept T) : (discipline P).Obeys pid (In P pid K T) (persistedResult P state) := by
  refine safe_require (fun _ => ?_) fun _ _ _ _ => trivial
  refine safe_look kept fun found _ => ?_
  refine safe_require (fun _ => ?_) fun _ _ _ _ => trivial
  exact .ofExcept_bind (fun _ _ _ _ _ => trivial) fun _ _ _ _ _ => trivial

variable {response : Json}

theorem safe_recoverNote {latest : Checkpoint} {known : Bool}
    (valid : validId id = true) (unclaimed : ¬ latest.cancelClaimed = true) : (discipline P).Obeys pid (In P pid
    (fun w => (Copied P id state w ∧ Agrees w.checkpoint response) ∧ w.checkpoint = some latest) (Told P pid response))
    (recoverState.note P rounds job id state known response) := by
  refine safe_time .told fun time => ?_
  split_ifs
  · exact safe_timesOut valid fun s _ holds => ⟨holds.1, holds.2.1.1.1.bound, trivial⟩
  · refine .ofExcept_bind (fun status parsed => ?_) fun _ _ _ _ _ => trivial
    refine safe_given (state.providerId = id) (fun s _ holds => holds.2.1.1.1.named) fun named => ?_
    refine safe_save .told (fun s _ holds => ?_) ?_ fun _ _ _ _ _ => trivial
    · exact replaces_recorded valid holds.2.1.1.1 holds.2.1.2 unclaimed holds.2.1.1.2 parsed
    · exact (safe_drive valid rounds _ response _).strengthen fun s _ holds => .of_recorded named parsed holds

theorem safe_recoverState (valid : validId id = true) (named : state.providerId = id) : (discipline P).Obeys
    pid (In P pid (Holds state) anyTrace) (recoverState P rounds job id state) := by
  refine .strengthen (L := In P pid (Copied P id state) anyTrace) ?_ fun s inv holds =>
    ⟨holds.1, .of_checkpoint inv holds.2.1 named, trivial⟩
  have timesOut : (discipline P).Obeys pid (In P pid (Copied P id state) anyTrace) (timeOut state : Program Delivered) :=
    safe_timesOut valid fun s _ holds => ⟨holds.1, holds.2.1.bound, trivial⟩
  unfold recoverState
  split_ifs
  · exact safe_persistedResult .any
  · split
    · exact fun _ _ _ => trivial
    · exact fun _ _ _ => trivial
    · refine safe_time .any fun time => ?_
      split_ifs
      · exact timesOut
      · refine safe_time .any fun _ => safe_status valid (fun response => ?_) fun error => ?_
        · refine safe_reload .told (fun w holds => holds.1.bound) fun latest same => ?_
          dsimp only
          split_ifs with claims
          · exact fun _ _ _ => trivial
          · exact safe_recoverNote valid claims
        · dsimp only
          split_ifs
          · exact timesOut
          · exact fun _ _ _ => trivial

theorem safe_recover (providerId pending : String) : (discipline P).Obeys pid (In P pid K anyTrace)
    (recover P rounds job providerId pending) := by
  refine .check fun _ => ?_
  refine safe_require (fun valid => ?_) fun _ _ _ _ => trivial
  refine safe_require (fun _ => ?_) fun _ _ _ _ => trivial
  refine safe_load .any fun found _ => ?_
  cases found with
  | none => exact fun _ _ _ => trivial
  | some state =>
    refine safe_require (fun named => ?_) fun _ _ _ _ => trivial
    have here (s : Shared (carefulMachine P)) (holds : In P pid (fun w => K w ∧ w.checkpoint = some state) anyTrace s) :
        In P pid (Holds state) anyTrace s := ⟨holds.1, holds.2.1.2, trivial⟩
    dsimp only
    split_ifs
    · refine .bind (Q := fun _ => Caught P pid providerId) ?_ fun _ => ?_
      · exact (safe_cancelOnce valid state _).consequence (fun s _ holds => .of_holds named (here s holds))
          (fun _ _ => id) fun _ _ _ => trivial
      · refine safe_reload .any (fun w bound => bound) fun latest same => ?_
        exact (safe_recoverState valid same).strengthen fun s _ holds => ⟨holds.1, holds.2.1.2, trivial⟩
    · exact (safe_recoverState valid named).strengthen fun s _ => here s

theorem safe_recoverLocal : (discipline P).Obeys pid (In P pid K anyTrace) (recoverLocal P rounds job) := by
  refine safe_load .any fun found _ => ?_
  cases found with
  | none => exact fun _ _ _ => trivial
  | some state =>
    refine safe_require (fun _ => ?_) fun _ _ _ _ => trivial
    refine safe_still .any (fun _ => trivial) (fun _ _ _ => id) fun answer => ?_
    exact .check fun _ => safe_recover _ _

theorem safe_cancel : (discipline P).Obeys pid (In P pid K anyTrace) cancel := by
  refine safe_load .any fun found _ => ?_
  cases found with
  | none => exact fun _ _ _ => trivial
  | some state =>
    refine safe_given (state.providerId = "" ∨ validId state.providerId = true)
      (fun s inv holds => (inv.file state holds.2.1.2).named) fun named => ?_
    refine safe_require (fun known => ?_) fun _ _ _ _ => trivial
    have cancels : (discipline P).Obeys pid (In P pid (fun w => K w ∧ w.checkpoint = some state) anyTrace)
        (cancelOnce state "CALLER_CANCELLED") :=
      (safe_cancelOnce (named.resolve_left known) state _).consequence
        (fun s _ holds => ⟨holds.1, ⟨state, holds.2.1.2, rfl⟩, trivial⟩) (fun _ _ _ => trivial) fun _ _ _ => trivial
    split
    · exact fun _ _ _ => trivial
    · exact fun _ _ _ => trivial
    · exact fun _ _ _ => trivial
    · exact cancels

theorem Kept.claims : Kept fun trace => 0 < countBy Hero.claims pid trace := by
  intro e trace some
  rw [countBy, List.countP_cons]
  exact Nat.add_pos_left some _

theorem replaces_mine (found : s.world.checkpoint = some state)
    (mine : 0 < countBy claims pid s.trace) (named : state.providerId = "" ∨ new.providerId = state.providerId)
    (fresh : state.status = .submitting) (unclaimed : state.cancelClaimed = false ∧ new.cancelClaimed = false)
    (empty : new.resultPath = "") (valid : new.providerId = "" ∨ validId new.providerId = true)
    (started : new.providerId = "" → new.status = .submitting) :
    ∃ file, s.world.checkpoint = some file ∧ Replaces P pid s file new := by
  refine ⟨state, found, fun _ => mine, fun known => named.resolve_left known, fun is => ?_, fun final => ?_, ?_⟩
  · exact nomatch unclaimed.1.symm.trans is
  · rcases final with is | is <;> exact nomatch fresh.symm.trans is
  · exact ⟨fun is => (nomatch unclaimed.2.symm.trans is), valid, started, fun has => absurd empty has⟩

variable {providerId : String}

theorem validId_of_jobId (is : jobId response = some providerId) : validId providerId = true := by
  unfold jobId at is
  split at is
  · split at is
    · split_ifs at is with valid
      cases is
      exact valid
    · cases is
  · cases is

theorem safe_submitted {K : Delivered → Assertion (carefulMachine P)}
    {next : Unit → Program Delivered} (valid : validId providerId = true) (unnamed : state.providerId = "")
    (fresh : state.status = .submitting) (unclaimed : state.cancelClaimed = false) (empty : state.resultPath = "")
    (rest : (discipline P).Safe pid (In P pid (Holds { state with providerId }) fun trace =>
      0 < countBy claims pid trace ∧ Told P pid response trace) (next ()) K fun _ _ => True) :
    (discipline P).Safe pid (In P pid (Holds state) fun trace => 0 < countBy claims pid trace ∧ Told P pid response trace)
      ((save { state with providerId }).bind next) K fun _ _ => True := by
  refine safe_save (fun e trace holds => ⟨Kept.claims e trace holds.1, Kept.told e trace holds.2⟩) (fun s _ holds => ?_) rest
    fun _ _ _ _ _ => trivial
  exact replaces_mine holds.2.1 holds.2.2.1 (.inl unnamed) fresh ⟨unclaimed, unclaimed⟩ empty (.inr valid)
    fun absent => absurd absent (ne_of_validId valid)

theorem safe_submit : (discipline P).Obeys pid (In P pid K anyTrace) (submit P rounds job) := by
  refine .check fun _ => ?_
  refine safe_time .any fun time => ?_
  generalize start : freshCheckpoint P time = state
  have unnamed : state.providerId = "" := by rw [← start, freshCheckpoint]
  have fresh : state.status = .submitting := by rw [← start, freshCheckpoint]
  have unclaimed : state.cancelClaimed = false := by rw [← start, freshCheckpoint]
  have empty : state.resultPath = "" := by rw [← start, freshCheckpoint]
  have sane (output : Output) : Sane P output state :=
    ⟨fun is => (nomatch unclaimed.symm.trans is), .inl unnamed, fun _ => fresh, fun has => absurd empty has⟩
  refine .act (fun answer s => s.world.turn = some pid ∧ (answer = .ok true →
    s.world.checkpoint = some state ∧ countBy submits pid s.trace < countBy claims pid s.trace))
    (fun s _ _ => sane s.world.output) (fun _ => stable_turn) ?_ fun answer => ?_
  · intro answer s s' inv holds performs _
    have done := done_of_performs performs
    have before := inv.submits pid
    refine ⟨?_, ?_⟩
    · rcases done.effect with ⟨-, -, same⟩ | ⟨-, same⟩ <;> rw [same] <;> exact holds.1
    · rintro rfl
      rcases done.effect with ⟨-, -, same⟩ | ⟨other, -⟩
      · refine ⟨by rw [same], ?_⟩
        rw [performs.countBy, performs.countBy]
        simp only [submits, claims, Bool.false_and, Bool.false_eq_true, if_false, decide_true, Bool.true_and, if_true]
        omega
      · exact absurd rfl other
  match answer with
  | .error error => exact fun _ _ _ => trivial
  | .ok false => exact fun _ _ _ => trivial
  | .ok true =>
    refine .act (fun _ => Pending pid state) (fun _ _ _ => trivial) (fun _ => stable_pending) ?_ fun _ => ?_
    · intro _ s s' _ holds performs _
      have done := done_of_performs performs
      obtain ⟨found, mine⟩ := holds.2 rfl
      have same : s'.world = { s.world with turn := none } := done.effect
      refine ⟨by rw [same]; exact found, unnamed, ?_⟩
      rw [performs.countBy, performs.countBy]
      simpa only [submits, claims, Bool.false_and, Bool.false_eq_true, if_false, Nat.add_zero] using mine
    refine .act (fun response => In P pid (Holds state) fun trace => 0 < countBy claims pid trace ∧
      ∀ value, response = .ok value → Told P pid value trace) (fun _ _ pending => pending.mine) (fun _ => stable_in) ?_
      fun response => ?_
    · intro response s s' _ pending performs _
      have done := done_of_performs performs
      obtain ⟨-, same⟩ := done.wakes trivial
      refine ⟨by rw [same], by rw [same]; exact pending.file, ?_, ?_⟩
      · rw [done.trace]
        exact Kept.claims _ _ (Nat.zero_lt_of_lt pending.mine)
      · rintro value rfl id completed
        rw [done.trace]
        exact ⟨done.careful value rfl, _, List.mem_cons_self, rfl, .submit pid id completed⟩
    have kept : Kept fun trace => 0 < countBy claims pid trace ∧ ∀ value, response = .ok value → Told P pid value trace :=
      fun e trace holds => ⟨Kept.claims e trace holds.1, fun value is => Kept.told e trace (holds.2 value is)⟩
    have gaveUp (reason : String) (error : Error) : (discipline P).Obeys pid (In P pid (Holds state) fun trace =>
        0 < countBy claims pid trace ∧ ∀ value, response = .ok value → Told P pid value trace)
        ((save { state with terminalReason := reason }).bind fun _ => (.raise error : Program Delivered)) := by
      refine safe_save kept (fun s _ holds => ?_) (fun _ _ _ => trivial) fun _ _ _ _ _ => trivial
      exact replaces_mine holds.2.1 holds.2.2.1 (.inl unnamed) fresh ⟨unclaimed, unclaimed⟩ empty (.inl unnamed) fun _ => fresh
    cases response with
    | error error => exact gaveUp _ _
    | ok response =>
      simp only [Prog.bind]
      cases named : jobId response with
      | none => exact gaveUp _ _
      | some providerId =>
        have valid := validId_of_jobId named
        refine (safe_submitted valid unnamed fresh unclaimed empty ?_).strengthen fun s _ holds =>
          ⟨holds.1, holds.2.1, holds.2.2.1, holds.2.2.2 response rfl⟩
        have kept : Kept fun trace => 0 < countBy claims pid trace ∧ Told P pid response trace :=
          fun e trace holds => ⟨Kept.claims e trace holds.1, Kept.told e trace holds.2⟩
        refine safe_still kept (fun _ => trivial) (fun _ _ _ => id) fun remembered => ?_
        refine .check fun _ => ?_
        refine .ofExcept_bind (fun status parsed => ?_) fun _ _ _ _ _ => trivial
        refine safe_save kept (fun s _ holds => ?_) ?_ fun _ _ _ _ _ => trivial
        · exact replaces_mine holds.2.1 holds.2.2.1 (.inr rfl) fresh ⟨unclaimed, unclaimed⟩ empty (.inr valid)
            fun absent => absurd absent (ne_of_validId valid)
        · refine (safe_drive valid rounds _ response _).strengthen fun s _ holds => ⟨holds.1, _, holds.2.1, rfl, ?_⟩
          exact fun completed => holds.2.2.2 providerId (parsed.trans (congrArg Except.ok completed))

theorem safe_task {body : Program α} (safe : (discipline P).Obeys pid (In P pid (fun _ => True) anyTrace) body) :
    (discipline P).Obeys pid (fun _ => True) (task body) := by
  refine .act (fun _ => In P pid (fun _ => True) anyTrace) (fun _ _ _ => trivial) (fun _ => stable_in) ?_
    fun _ => ?_
  · intro _ s s' _ _ performs _
    obtain ⟨-, same⟩ := (done_of_performs performs).wakes trivial
    exact ⟨by rw [same], trivial, trivial⟩
  · have ends : (discipline P).Obeys pid (fun _ => True) (perform .suspend) :=
      perform (fun _ _ _ => trivial) (fun _ => Protocol.Stable.true) fun _ _ _ _ _ _ _ => trivial
    show (discipline P).Safe pid _ ((body.ensuring (perform .suspend)).bind _) _ _
    exact .bind (.ensuring safe (fun _ => ends) fun _ => ends) fun _ _ _ _ => trivial

theorem admits : (discipline P).Admits (calls P) := by
  rintro call (((rfl | ⟨_, rfl⟩) | ⟨_, rfl⟩) | ⟨_, rfl⟩) pid
  · exact safe_task safe_cancel
  · exact safe_task safe_submit
  · exact safe_task safe_recoverLocal
  · exact safe_task (safe_recover _ _)

end Calls

end VideoPoster.Hero
