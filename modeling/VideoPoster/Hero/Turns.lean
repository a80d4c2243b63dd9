import VideoPoster.Hero.Discipline

/-!
# The turns of a task
-/

namespace VideoPoster.Hero
open Python Interleaving Program

variable {P : Provider} {pid : ℕ} {id : String} {state : Checkpoint} {α : Type}

def In (P : Provider) (pid : ℕ) (K : World → Prop) (T : List (Event actions) → Prop) : Assertion (carefulMachine P) :=
  fun s => s.world.turn = some pid ∧ K s.world ∧ T s.trace

def Kept (T : List (Event actions) → Prop) : Prop := ∀ e trace, T trace → T (e :: trace)

def anyTrace (_ : List (Event actions)) : Prop := True

theorem Kept.any : Kept anyTrace := fun _ _ _ => trivial

theorem Kept.heard {response : Json} : Kept (Heard P pid response) := by
  rintro e trace ⟨priced, e', member, own, tells⟩
  exact ⟨priced, e', .tail _ member, own, tells⟩

structure Lasting (P : Provider) (pid : ℕ) (K : World → Prop) : Prop where
  stable : (discipline P).Stable pid fun s => K s.world
  turn : ∀ w turn, K w → K { w with turn }

theorem stable_in {K : World → Prop} {T : List (Event actions) → Prop} : (discipline P).Stable pid (In P pid K T) :=
  stable_turn

theorem ne_of_validId (valid : validId id = true) : id ≠ "" := by
  rintro rfl
  exact absurd valid (by decide)

theorem Lasting.bound (valid : validId id = true) : Lasting P pid (Bound id) where
  stable := stable_bound (ne_of_validId valid)
  turn _ _ bound := bound

theorem Lasting.copied (valid : validId id = true) : Lasting P pid (Copied P id state) where
  stable := stable_copied (ne_of_validId valid)
  turn _ _ copied := ⟨copied.named, copied.file, copied.result⟩

section Rules
variable {K : World → Prop} {T : List (Event actions) → Prop} {Q : α → Assertion (carefulMachine P)}
  {E : Error → Assertion (carefulMachine P)}

theorem safe_load {reader : Reader} {next : Option Checkpoint → Program α} (kept : Kept T)
    (rest : ∀ found, (reader = .cancelOnce → ∀ file ∈ found, ¬ file.status.Final) →
      (discipline P).Safe pid (In P pid (fun w => K w ∧ w.checkpoint = found) T) (next found) Q E) :
    (discipline P).Safe pid (In P pid K T) ((perform (.load reader)).bind next) Q E := by
  refine .act (fun found s => (reader = .cancelOnce → ∀ file ∈ found, ¬ file.status.Final) ∧
    In P pid (fun w => K w ∧ w.checkpoint = found) T s) (fun _ _ _ => trivial) (fun found => ?_) ?_ fun found => ?_
  · exact fun s s' inv step holds => ⟨holds.1, stable_in s s' inv step holds.2⟩
  · intro found s s' _ holds performs _
    have done := done_of_performs performs
    obtain ⟨same, seen⟩ : s'.world = s.world ∧ found = s.world.checkpoint := done.effect
    refine ⟨?_, by rw [same]; exact holds.1, by rw [same]; exact ⟨holds.2.1, seen.symm⟩, ?_⟩
    · rintro rfl
      exact done.careful
    · rw [done.trace]
      exact kept _ _ holds.2.2
  · exact .given (fun s _ holds => holds.1) fun nonfinal =>
      (rest found nonfinal).strengthen fun s _ holds => holds.2

theorem safe_look {expected : String} {next : Output → Program α} (kept : Kept T) (rest : ∀ found,
    found = .absent ∨ found = .regular expected → (discipline P).Safe pid (In P pid (fun w => K w ∧ w.output = found) T)
    (next found) Q E) : (discipline P).Safe pid (In P pid K T) ((perform (.look expected)).bind next) Q E := by
  refine .act (fun found s => (found = .absent ∨ found = .regular expected) ∧
    In P pid (fun w => K w ∧ w.output = found) T s) (fun _ _ _ => trivial) (fun found => ?_) ?_ fun found => ?_
  · exact fun s s' inv step holds => ⟨holds.1, stable_in s s' inv step holds.2⟩
  · intro found s s' _ holds performs _
    have done := done_of_performs performs
    obtain ⟨same, seen⟩ : s'.world = s.world ∧ found = s.world.output := done.effect
    refine ⟨done.careful, by rw [same]; exact holds.1, by rw [same]; exact ⟨holds.2.1, seen.symm⟩, ?_⟩
    rw [done.trace]
    exact kept _ _ holds.2.2
  · exact .given (fun s _ holds => holds.1) fun fits =>
      (rest found fits).strengthen fun s _ holds => holds.2

variable {action : Act} {next : action.Res → Program α}

theorem safe_still (kept : Kept T) (granted : ∀ s, grants P pid s action) (still : ∀ (w w' : World) response, Effect
    w w' action response → w' = w) (rest : ∀ response, (discipline P).Safe pid (In P pid K T) (next response) Q E) :
    (discipline P).Safe pid (In P pid K T) ((perform action).bind next) Q E := by
  refine .act (fun _ => In P pid K T) (fun s _ _ => granted s) (fun _ => stable_in) ?_ rest
  intro response s s' _ holds performs _
  have done := done_of_performs performs
  have same := still _ _ _ done.effect
  refine ⟨by rw [same]; exact holds.1, by rw [same]; exact holds.2.1, ?_⟩
  rw [done.trace]
  exact kept _ _ holds.2.2

theorem safe_time {next : ℚ → Program α} (kept : Kept T) (rest : ∀ time, (discipline P).Safe pid (In P pid K T)
    (next time) Q E) : (discipline P).Safe pid (In P pid K T) ((perform .time).bind next) Q E :=
  @safe_still P pid α K T Q E .time next kept (fun _ => trivial) (fun _ _ _ => id) rest

theorem safe_save {new : Checkpoint} {next : Unit → Program α} (kept : Kept T) (replaces : ∀ s, Inv P s →
    In P pid K T s → ∃ file, s.world.checkpoint = some file ∧ Replaces P pid s file new) (rest : (discipline P).Safe
    pid (In P pid (fun w => w.checkpoint = some new) T) (next ()) Q E) (failed : ∀ error s, error.kind ≠ .valueError →
    Inv P s → In P pid K T s → E error s) : (discipline P).Safe pid (In P pid K T) ((save new).bind next) Q E := by
  refine .act (fun answer s => NoValueError answer ∧
    (answer = .ok () → In P pid (fun w => w.checkpoint = some new) T s) ∧
    (answer ≠ .ok () → In P pid K T s)) replaces (fun answer => ?_) ?_ fun answer => ?_
  · intro s s' inv step holds
    exact ⟨holds.1, fun ok => stable_in s s' inv step (holds.2.1 ok), fun no => stable_in s s' inv step (holds.2.2 no)⟩
  · intro answer s s' _ holds performs _
    have done := done_of_performs performs
    have trace : T s'.trace := by
      rw [done.trace]
      exact kept _ _ holds.2.2
    refine ⟨done.careful, fun ok => ?_, fun no => ?_⟩
    · rcases done.effect with ⟨-, same⟩ | ⟨⟨error, failed⟩, -⟩
      · exact ⟨by rw [same]; exact holds.1, by rw [same], trace⟩
      · exact nomatch failed.symm.trans ok
    · rcases done.effect with ⟨ok, -⟩ | ⟨-, same⟩
      · exact absurd ok no
      · exact ⟨by rw [same]; exact holds.1, by rw [same]; exact holds.2.1, trace⟩
  · cases answer with
    | ok _ => exact rest.strengthen fun s _ holds => holds.2.1 rfl
    | error error => exact fun s inv holds => failed error s (holds.1 error rfl) inv (holds.2.2 nofun)

theorem safe_link {sha256 : String} {next : Result Bool → Program α} (kept : Kept T)
    (grows : ∀ w, K w → w.output = .absent → K { w with output := .regular sha256 })
    (linked : (discipline P).Safe pid (In P pid (fun w => K w ∧ w.output = .regular sha256) T) (next (.ok true)) Q E)
    (there : (discipline P).Safe pid (In P pid (fun w => K w ∧ w.output ≠ .absent) T) (next (.ok false)) Q E)
    (failed : ∀ error, error.kind ≠ .valueError → (discipline P).Safe pid (In P pid K T) (next (.error error)) Q E) :
    (discipline P).Safe pid (In P pid K T) ((perform (.link sha256)).bind next) Q E := by
  refine .act (fun answer s => NoValueError answer ∧
    In P pid (fun w => K w ∧ (answer = .ok true → w.output = .regular sha256) ∧ (answer = .ok false → w.output ≠ .absent)) T s)
    (fun _ _ _ => trivial) (fun answer => ?_) ?_ fun answer => ?_
  · exact fun s s' inv step holds => ⟨holds.1, stable_in s s' inv step holds.2⟩
  · intro answer s s' _ holds performs _
    have done := done_of_performs performs
    have trace : T s'.trace := by
      rw [done.trace]
      exact kept _ _ holds.2.2
    refine ⟨done.careful, ?_⟩
    rcases done.effect with ⟨rfl, absent, same⟩ | ⟨same, unlinked, present⟩
    · refine ⟨by rw [same]; exact holds.1, ?_, trace⟩
      rw [same]
      exact ⟨grows _ holds.2.1 absent, fun _ => rfl, nofun⟩
    · refine ⟨by rw [same]; exact holds.1, ?_, trace⟩
      rw [same]
      exact ⟨holds.2.1, fun is => absurd is unlinked, present⟩
  · refine .given (fun s _ holds => holds.1) fun fine => ?_
    match answer with
    | .ok true => exact linked.strengthen fun s _ holds => ⟨holds.2.1, ⟨holds.2.2.1.1, holds.2.2.1.2.1 rfl⟩, holds.2.2.2⟩
    | .ok false => exact there.strengthen fun s _ holds => ⟨holds.2.1, ⟨holds.2.2.1.1, holds.2.2.1.2.2 rfl⟩, holds.2.2.2⟩
    | .error error =>
      exact (failed error (fine error rfl)).strengthen fun s _ holds => ⟨holds.2.1, holds.2.2.1.1, holds.2.2.2⟩

theorem safe_awaiting (lasting : Lasting P pid K) (kept : Kept T) (awaits : action.Awaits)
    (granted : ∀ s, grants P pid s action) (rest : ∀ response, (discipline P).Safe pid (In P pid (fun w => K w ∧
    ∃ turn, careful P { w with turn } ⟨pid, action, response⟩) fun trace => T trace ∧ ⟨pid, action, response⟩ ∈ trace)
    (next response) Q E) : (discipline P).Safe pid (In P pid K T) ((awaiting action).bind next) Q E := by
  refine .act (fun _ s => K s.world ∧ T s.trace) (fun _ _ _ => trivial) (fun _ => ?_) ?_ fun _ => ?_
  · intro s s' inv step holds
    refine ⟨lasting.stable s s' inv step holds.1, ?_⟩
    cases step with
    | perform _ _ performs =>
      rw [(done_of_performs performs).trace]
      exact kept _ _ holds.2
    | crash _ => exact holds.2
  · intro response s s' _ holds performs _
    have done := done_of_performs performs
    have same : s'.world = { s.world with turn := none } := done.effect
    refine ⟨by rw [same]; exact lasting.turn _ _ holds.2.1, ?_⟩
    rw [done.trace]
    exact kept _ _ holds.2.2
  · refine .act _ (fun s _ _ => granted s) (fun _ => stable_in) ?_ rest
    intro response s s' _ holds performs _
    have done := done_of_performs performs
    obtain ⟨-, same⟩ := done.wakes awaits
    refine ⟨by rw [same], ?_, ?_⟩
    · rw [same]
      exact ⟨lasting.turn _ _ holds.1, s.world.turn, done.careful⟩
    · rw [done.trace]
      exact ⟨kept _ _ holds.2, List.mem_cons_self⟩

variable {L : Assertion (carefulMachine P)}

theorem safe_given (fact : Prop) {program : Program α} (known : ∀ s, Inv P s → L s → fact)
    (safe : fact → (discipline P).Safe pid L program Q E) : (discipline P).Safe pid L program Q E :=
  Protocol.Safe.given known safe

theorem safe_require {condition : Prop} [Decidable condition] {error : Error} {next : Unit → Program α}
    (met : condition → (discipline P).Safe pid L (next ()) Q E) (unmet : ¬ condition → ∀ s, Inv P s → L s → E error s) :
    (discipline P).Safe pid L ((ofResult (require condition error)).bind next) Q E := by
  unfold require
  split_ifs with holds
  · exact met holds
  · exact unmet holds

end Rules

end VideoPoster.Hero
