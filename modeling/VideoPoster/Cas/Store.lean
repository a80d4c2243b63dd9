import VideoPoster.Executor.Cache
import VideoPoster.Bridge.RoundTrip

/-!
# `cas`: `put` and `get` of any number of processes

An object and its metadata are two files. The object is linked, which fails where one is there already; the metadata
are replaced.
-/

namespace VideoPoster.CasStore
open Python Interleaving Function Option Protocol.Safe List Except Config
open Executor (ContentAddressedStore validateKey)

structure Metadata where
  key : String
  objectSha256 : String
  schema : ℕ
  deriving DecidableEq

inductive Request where
  | get (key : String)
  | put (key : String) (source : Option ByteArray)

def Request.key : Request → String
  | .get key => key
  | .put key _ => key

structure Visit where
  request : Request
  published : Bool

structure World where
  objects : String → Option ByteArray
  metadata : String → Option Metadata
  temporary : ℕ → Option ByteArray
  visit : ℕ → Option Visit

inductive Act where
  | call (request : Request)
  | objectIsFile (key : String)
  | metadataIsFile (key : String)
  | readMetadata (key : String)
  | objectSha (key : String)
  | createTemporary
  | copy (source : ByteArray)
  | link (key : String)
  | temporarySha
  | unlinkTemporary
  | replaceMetadata (key : String) (metadata : Metadata)
  | answer (outcome : Result (Option String))

abbrev Act.Res : Act → Type
  | .call _ | .answer _ => Visit
  | .objectIsFile _ | .metadataIsFile _ => Bool
  | .readMetadata _ => Result Metadata
  | .objectSha _ | .temporarySha => Result String
  | .link _ => Result Bool
  | .createTemporary | .copy _ | .unlinkTemporary | .replaceMetadata _ _ => Unit

abbrev actions : Interface := ⟨Act, Act.Res⟩

def found {α : Type} : Option α → Result α
  | some file => .ok file
  | none => .error ⟨.other "FileNotFoundError", "No such file or directory"⟩

def World.published (w : World) (key : String) : Bool := (w.objects key).isSome && (w.metadata key).isSome

structure Platform where
  store : ContentAddressedStore
  sha256 : ByteArray → String

def exec (P : Platform) (pid : ℕ) (w : World) : (action : Act) → Option (World × action.Res)
  | .call request =>
    let visit := ⟨request, w.published request.key⟩
    some ({ w with visit := update w.visit pid (some visit) }, visit)
  | .objectIsFile key => some (w, (w.objects key).isSome)
  | .metadataIsFile key => some (w, (w.metadata key).isSome)
  | .readMetadata key => some (w, found (w.metadata key))
  | .objectSha key => some (w, found ((w.objects key).map P.sha256))
  | .createTemporary => some ({ w with temporary := update w.temporary pid (some .empty) }, ())
  | .copy source => some ({ w with temporary := update w.temporary pid (some source) }, ())
  | .link key =>
    match w.objects key, w.temporary pid with
    | some _, some _ => some (w, .ok false)
    | none, some bytes => some ({ w with objects := update w.objects key (some bytes) }, .ok true)
    | _, none => some (w, found none)
  | .temporarySha => some (w, found ((w.temporary pid).map P.sha256))
  | .unlinkTemporary => some ({ w with temporary := update w.temporary pid none }, ())
  | .replaceMetadata key metadata =>
    some ({ w with metadata := update w.metadata key (some metadata) }, ())
  | .answer _ => (w.visit pid).map fun visit => (w, visit)

abbrev machine (P : Platform) : Machine actions where
  World := World
  Oracle := Unit
  exec _ := exec P
  crash _ w := w

abbrev Program (α : Type) := Prog actions Error α

def collision : Error := .value "CAS key collision with different output bytes"

section Source
variable (P : Platform)

def get (key : String) : Program (Option String) := do
  .ofExcept (validateKey key)
  let object : Bool ← .perform (I := actions) (.objectIsFile key)
  if object = false then pure none else
  let described : Bool ← .perform (I := actions) (.metadataIsFile key)
  if described = false then pure none else
  let metadata ← Prog.request (.readMetadata key) id
  let objectSha256 ← Prog.request (.objectSha key) id
  if metadata = ⟨key, objectSha256, 1⟩ then pure (some (P.store.objectPath key))
  else .raise (.value "CAS object metadata mismatch")

def writeMetadata (key : String) : Program String := do
  let objectSha256 ← Prog.request (.objectSha key) id
  let _ : Unit ← .perform (I := actions) (.replaceMetadata key ⟨key, objectSha256, 1⟩)
  pure (P.store.objectPath key)

def publish (key : String) (source : ByteArray) : Program Unit := do
  let _ : Unit ← .perform (I := actions) (.copy source)
  let linked ← Prog.request (.link key) id
  if linked = true then pure () else
  let objectSha256 ← Prog.request (.objectSha key) id
  let temporarySha256 ← Prog.request .temporarySha id
  if objectSha256 = temporarySha256 then pure () else .raise collision

def unlinkTemporary : Program Unit := .perform (I := actions) .unlinkTemporary

def put (key : String) : Option ByteArray → Program String
  | none => .raise (.value "CAS source must be a file")
  | some source => do
    let existing ← get P key
    if existing.isSome = true then
      let objectSha256 ← Prog.request (.objectSha key) id
      if objectSha256 = P.sha256 source then pure (P.store.objectPath key) else .raise collision
    else
    let there : Bool ← .perform (I := actions) (.objectIsFile key)
    if there = true then
      let objectSha256 ← Prog.request (.objectSha key) id
      if objectSha256 = P.sha256 source then writeMetadata P key else .raise collision
    else
    let _ : Unit ← .perform (I := actions) .createTemporary
    (publish key source).ensuring unlinkTemporary
    writeMetadata P key

def Request.run : Request → Program (Option String)
  | .get key => CasStore.get P key
  | .put key source => (CasStore.put P key source).bind fun path => pure (some path)

def Request.serve (request : Request) : Program Unit := do
  let _ : Visit ← .perform (I := actions) (.call request)
  let outcome ← (request.run P).attempt
  let _ : Visit ← .perform (I := actions) (.answer outcome)
  pure ()

end Source

/-! ## What every step keeps -/

def Published (P : Platform) (w : World) (key : String) : Prop :=
  ∃ stored, w.objects key = some stored ∧ w.metadata key = some ⟨key, P.sha256 stored, 1⟩

def Correct (P : Platform) (w : World) (visit : Visit) (outcome : Result (Option String)) : Prop :=
  validateKey visit.request.key = .ok () →
    match visit.request with
    | .get key => (outcome = .ok none ∧ visit.published = false) ∨
        (outcome = .ok (some (P.store.objectPath key)) ∧ Published P w key)
    | .put _ none => True
    | .put key (some source) => (outcome = .ok (some (P.store.objectPath key)) ∧ w.objects key = some source ∧
          Published P w key) ∨
        (outcome = .error collision ∧ ∃ stored, w.objects key = some stored ∧ stored ≠ source)

def isLink (key : String) (e : Event actions) : Bool :=
  match e with
  | ⟨_, .link linked, .ok true⟩ => linked = key
  | _ => false

variable {P : Platform}

structure Inv (P : Platform) (s : Shared (machine P)) : Prop where
  intact : ∀ key, s.world.metadata key ≠ none → Published P s.world key
  linked : ∀ key, s.trace.countP (isLink key) = if s.world.objects key = none then 0 else 1
  origin : ∀ key stored, s.world.objects key = some stored → ∃ pid visit,
    (⟨pid, .call (.put key (some stored)), visit⟩ : Event actions) ∈ s.trace ∧
      (⟨pid, .link key, (.ok true : Result Bool)⟩ : Event actions) ∈ s.trace
  visited : ∀ pid visit, s.world.visit pid = some visit →
    (⟨pid, .call visit.request, visit⟩ : Event actions) ∈ s.trace
  answered : ∀ pid outcome visit, (⟨pid, .answer outcome, visit⟩ : Event actions) ∈ s.trace →
    Correct P s.world visit outcome

def Asked (w : World) (pid : ℕ) (request : Request) : Prop := ∃ published, w.visit pid = some ⟨request, published⟩

def grants (P : Platform) (pid : ℕ) (w : World) : Act → Prop
  | .link key => ∃ source, Asked w pid (.put key (some source)) ∧ w.temporary pid = some source
  | .replaceMetadata key metadata => ∃ source, Asked w pid (.put key (some source)) ∧
      w.objects key = some source ∧ metadata = ⟨key, P.sha256 source, 1⟩
  | .answer outcome => ∃ visit, w.visit pid = some visit ∧ Correct P w visit outcome
  | _ => True

structure Extends (w w' : World) : Prop where
  objects : ∀ {key stored}, w.objects key = some stored → w'.objects key = some stored
  metadata : ∀ {key metadata}, w.metadata key = some metadata → w'.metadata key = some metadata

namespace Extends
variable {w w' : World} {key : String}

theorem published (extended : Extends w w') (published : Published P w key) : Published P w' key := by
  obtain ⟨stored, object, metadata⟩ := published
  exact ⟨stored, extended.objects object, extended.metadata metadata⟩

theorem correct (extended : Extends w w') {visit : Visit} {outcome : Result (Option String)}
    (correct : Correct P w visit outcome) : Correct P w' visit outcome := by
  intro valid
  have before := correct valid
  obtain ⟨request, published⟩ := visit
  match request with
  | .get key => exact before.imp_right fun answer => ⟨answer.1, extended.published answer.2⟩
  | .put key none => trivial
  | .put key (some source) =>
    rcases before with ⟨answer, object, published⟩ | ⟨answer, stored, object, other⟩
    · exact .inl ⟨answer, extended.objects object, extended.published published⟩
    · exact .inr ⟨answer, stored, extended.objects object, other⟩

end Extends

section Steps
variable {pid : ℕ} {action : Act} {response : action.Res} {s s' : Shared (machine P)} {w w' : World}

inductive Change (pid : ℕ) (w : World) : (action : Act) → action.Res → World → Prop
  | kept {action : Act} {response : action.Res} {w' : World}
      (silent : ∀ key, isLink key ⟨pid, action, response⟩ = false)
      (objects : w'.objects = w.objects) (metadata : w'.metadata = w.metadata) : Change pid w action response w'
  | linked {key : String} {bytes : ByteArray} (free : w.objects key = none) (own : w.temporary pid = some bytes) :
      Change pid w (.link key) (.ok true) { w with objects := update w.objects key (some bytes) }
  | replaced (key : String) (metadata : Metadata) : Change pid w (.replaceMetadata key metadata) ()
      { w with metadata := update w.metadata key (some metadata) }

theorem change_of_exec (executed : exec P pid w action = some (w', response)) : Change pid w action response w' := by
  cases action with
  | link key =>
    simp only [exec] at executed
    split at executed
    · cases executed
      exact .kept (fun _ => rfl) rfl rfl
    · rename_i free own
      cases executed
      exact .linked free own
    · cases executed
      exact .kept (fun _ => rfl) rfl rfl
  | replaceMetadata key metadata =>
    cases executed
    exact .replaced key metadata
  | answer outcome =>
    obtain ⟨visit, -, same⟩ := map_eq_some_iff.mp executed
    cases same
    exact .kept (fun _ => rfl) rfl rfl
  | _ =>
    cases executed
    exact .kept (fun _ => rfl) rfl rfl

theorem Inv.extends (inv : Inv P s) (granted : grants P pid s.world action)
    (change : Change pid s.world action response w') : Extends s.world w' := by
  cases change with
  | kept _ objects metadata => exact ⟨fun there => objects ▸ there, fun there => metadata ▸ there⟩
  | @linked key bytes free own =>
    refine ⟨fun {other stored} there => ?_, id⟩
    have different : other ≠ key := by
      rintro rfl
      exact absurd (free.symm.trans there) nofun
    exact (update_of_ne different _ _).trans there
  | replaced key metadata =>
    refine ⟨id, fun {other before} there => ?_⟩
    by_cases same : other = key
    · subst same
      obtain ⟨stored, object, described⟩ := inv.intact other fun none => absurd (none.symm.trans there) nofun
      obtain ⟨source, -, own, rfl⟩ := granted
      obtain rfl := some.inj (object.symm.trans own)
      rw [← there, described]
      exact update_self _ _ _
    · exact (update_of_ne same _ _).trans there

theorem foreign_of_exec (executed : exec P pid w action = some (w', response)) {other : ℕ} (foreign : other ≠ pid) :
    w'.visit other = w.visit other ∧ w'.temporary other = w.temporary other := by
  cases action with
  | call request =>
    cases executed
    exact ⟨update_of_ne foreign _ _, rfl⟩
  | createTemporary | copy | unlinkTemporary =>
    cases executed
    exact ⟨rfl, update_of_ne foreign _ _⟩
  | link key =>
    simp only [exec] at executed
    split at executed <;> cases executed <;> exact ⟨rfl, rfl⟩
  | answer outcome =>
    obtain ⟨visit, -, same⟩ := map_eq_some_iff.mp executed
    cases same
    exact ⟨rfl, rfl⟩
  | _ =>
    cases executed
    exact ⟨rfl, rfl⟩

theorem visit_of_exec (executed : exec P pid w action = some (w', response))
    (uncalled : ∀ request, action ≠ .call request) : w'.visit = w.visit := by
  cases action with
  | call request => exact absurd rfl (uncalled request)
  | link key =>
    simp only [exec] at executed
    split at executed <;> cases executed <;> rfl
  | answer outcome =>
    obtain ⟨visit, -, same⟩ := map_eq_some_iff.mp executed
    cases same
    rfl
  | _ =>
    cases executed
    rfl

theorem Inv.step (inv : Inv P s) (granted : grants P pid s.world action)
    (performs : Performs pid action response s s') : Inv P s' := by
  obtain ⟨_, executed, trace⟩ := performs
  have change := change_of_exec executed
  have extended := inv.extends granted change
  refine ⟨fun key there => ?_, fun key => ?_, fun key stored object => ?_, fun caller visit asked => ?_,
    fun actor outcome visit answered => ?_⟩
  · by_cases before : s.world.metadata key = none
    · generalize s'.world = w' at change there ⊢
      cases change with
      | kept _ _ metadata => exact absurd (metadata ▸ before) there
      | linked => exact absurd before there
      | replaced own metadata =>
        obtain ⟨source, -, object, rfl⟩ := granted
        obtain rfl : key = own := by
          by_contra different
          exact there ((update_of_ne different _ _).trans before)
        exact ⟨source, object, update_self _ _ _⟩
    · exact extended.published (inv.intact key before)
  · rw [trace, countP_cons, inv.linked key]
    generalize s'.world = w' at change ⊢
    cases change with
    | kept silent objects metadata => simp [silent key, objects]
    | @linked own bytes free =>
      by_cases same : key = own
      · subst same
        simp [isLink, free]
      · simp [isLink, update_of_ne same, Ne.symm same]
    | replaced => simp [isLink]
  · have old (before : s.world.objects key = some stored) : ∃ pid visit,
        (⟨pid, .call (.put key (some stored)), visit⟩ : Event actions) ∈ s'.trace ∧
          (⟨pid, .link key, (.ok true : Result Bool)⟩ : Event actions) ∈ s'.trace := by
      obtain ⟨creator, visit, called, linked⟩ := inv.origin key stored before
      rw [trace]
      exact ⟨creator, visit, .tail _ called, .tail _ linked⟩
    generalize s'.world = w' at change object
    cases change with
    | kept _ objects => exact old (objects ▸ object)
    | replaced => exact old object
    | @linked own bytes free temporary =>
      by_cases same : key = own
      · subst same
        obtain ⟨source, ⟨published, asked⟩, holds⟩ := granted
        obtain rfl : bytes = stored := by simpa using object
        obtain rfl := some.inj (temporary.symm.trans holds)
        rw [trace]
        exact ⟨pid, _, .tail _ (inv.visited pid _ asked), .head _⟩
      · exact old ((update_of_ne same _ _).symm.trans object)
  · rw [trace]
    by_cases called : caller = pid ∧ ∃ request, action = .call request
    · obtain ⟨rfl, request, rfl⟩ := called
      obtain ⟨world', trace'⟩ := s'
      cases executed
      obtain rfl : _ = visit := by simpa using asked
      exact .head _
    · have same : s'.world.visit caller = s.world.visit caller := by
        by_cases own : caller = pid
        · exact congrFun (visit_of_exec executed fun request is => called ⟨own, request, is⟩) caller
        · exact (foreign_of_exec executed own).1
      exact .tail _ (inv.visited caller visit (same ▸ asked))
  · rw [trace] at answered
    rcases mem_cons.mp answered with new | old
    · cases new
      obtain ⟨visit, asked, correct⟩ := granted
      obtain ⟨_, own, same⟩ := map_eq_some_iff.mp executed
      obtain rfl := (Prod.mk.inj same).2
      obtain rfl := some.inj (asked.symm.trans own)
      exact extended.correct correct
    · exact extended.correct (inv.answered actor outcome visit old)

end Steps

def discipline (P : Platform) : Protocol (machine P) where
  inv := Inv P
  grants pid s := grants P pid s.world
  preserves := Inv.step
  survives _ inv := ⟨inv.intact, inv.linked, inv.origin, inv.visited, inv.answered⟩

/-! ## What a process knows -/

/-- A fact about a process's temporary file and the store that outlasts the others' steps. -/
structure Fact where
  holds : Option ByteArray → World → Prop
  lasting : ∀ {temporary w w'}, Extends w w' → holds temporary w → holds temporary w'

namespace Fact

def of (p : Prop) : Fact := ⟨fun _ _ => p, fun _ => id⟩

def and (F G : Fact) : Fact :=
  ⟨fun temporary w => F.holds temporary w ∧ G.holds temporary w,
    fun extended => And.imp (F.lasting extended) (G.lasting extended)⟩

def or (F G : Fact) : Fact :=
  ⟨fun temporary w => F.holds temporary w ∨ G.holds temporary w,
    fun extended => Or.imp (F.lasting extended) (G.lasting extended)⟩

def given (p : Prop) (F : Fact) : Fact :=
  ⟨fun temporary w => p → F.holds temporary w, fun extended known holds => F.lasting extended (known holds)⟩

def copied (source : ByteArray) : Fact := ⟨fun temporary _ => temporary = some source, fun _ => id⟩

def object (key : String) (kind : ByteArray → Prop) : Fact :=
  ⟨fun _ w => ∃ stored, w.objects key = some stored ∧ kind stored,
    fun extended ⟨stored, there, is⟩ => ⟨stored, extended.objects there, is⟩⟩

def published (P : Platform) (key : String) : Fact := ⟨fun _ w => Published P w key, Extends.published⟩

def correct (P : Platform) (visit : Visit) (outcome : Result (Option String)) : Fact :=
  ⟨fun _ w => Correct P w visit outcome, fun extended => extended.correct⟩

end Fact

def Knows (pid : ℕ) (visit : Visit) (F : Fact) : Assertion (machine P) :=
  fun s => s.world.visit pid = some visit ∧ F.holds (s.world.temporary pid) s.world

def Conducts (P : Platform) (pid : ℕ) (visit : Visit) {α : Type} (F : Fact) (program : Program α) (Q : α → Fact)
    (E : Error → Fact) : Prop :=
  (discipline P).Safe pid (Knows pid visit F) program (fun value => Knows pid visit (Q value))
    fun error => Knows pid visit (E error)

section Conduct
variable {α : Type} {pid : ℕ} {visit : Visit} {F G : Fact} {key : String} {source : ByteArray} {Q : α → Fact}
  {E : Error → Fact}

theorem stable_knows : (discipline P).Stable pid (Knows pid visit F) := by
  intro s s' inv step holds
  cases step with
  | crash => exact holds
  | perform foreign granted performs =>
    obtain ⟨_, executed, -⟩ := performs
    have extended := Inv.extends inv granted (change_of_exec executed)
    obtain ⟨visit, temporary⟩ := foreign_of_exec executed (Ne.symm foreign)
    exact ⟨visit.trans holds.1, F.lasting extended (temporary ▸ holds.2)⟩

namespace Conducts

variable {action : Act} {next : action.Res → Program α}

theorem act (G : action.Res → Fact) (uncalled : ∀ request, action ≠ .call request)
    (granted : ∀ w, w.visit pid = some visit → F.holds (w.temporary pid) w → grants P pid w action)
    (establishes : ∀ r s w', Inv P s → F.holds (s.world.temporary pid)
    s.world → Extends s.world w' → exec P pid s.world action = some (w', r) → (G r).holds (w'.temporary pid) w')
    (rest : ∀ r, Conducts P pid visit (G r) (next r) Q E) : Conducts P pid visit F (.act action next) Q E := by
  refine Protocol.Safe.act (fun r => Knows pid visit (G r)) (fun s _ holds => granted s.world holds.1 holds.2)
    (fun r => stable_knows) (fun r s s' inv holds performs _ => ?_) rest
  obtain ⟨_, executed, -⟩ := performs
  have extended := Inv.extends inv (granted s.world holds.1 holds.2) (change_of_exec executed)
  exact ⟨(congrFun (visit_of_exec executed uncalled) pid).trans holds.1,
    establishes r s _ inv holds.2 extended executed⟩

theorem perform (G : action.Res → Fact) (uncalled : ∀ request, action ≠ .call request)
    (granted : ∀ w, w.visit pid = some visit → F.holds (w.temporary pid) w → grants P pid w action)
    (establishes : ∀ r s w', Inv P s → F.holds (s.world.temporary pid) s.world → Extends s.world w' → exec P pid s.world
    action = some (w', r) → (G r).holds (w'.temporary pid) w') (rest : ∀ r, Conducts P pid visit (G r) (next r) Q E) :
    Conducts P pid visit F (Prog.bind (.perform action) next) Q E :=
  act G uncalled granted establishes rest

theorem value {value : α} (known : ∀ temporary w, F.holds temporary w → (Q value).holds temporary w) :
    Conducts P pid visit F (.pure value) Q E := fun _ _ holds => ⟨holds.1, known _ _ holds.2⟩

theorem error {error : Error} (known : ∀ temporary w, F.holds temporary w → (E error).holds temporary w) :
    Conducts P pid visit F (.raise error : Program α) Q E := fun _ _ holds => ⟨holds.1, known _ _ holds.2⟩

variable {program : Program α}

theorem weaken {Q' : α → Fact} {E' : Error → Fact}
    (conducts : Conducts P pid visit F program Q E) (known : ∀ temporary w, G.holds temporary w → F.holds temporary w)
    (value : ∀ x temporary w, (Q x).holds temporary w → (Q' x).holds temporary w) (error :
    ∀ e temporary w, (E e).holds temporary w → (E' e).holds temporary w) : Conducts P pid visit G program Q' E' :=
  conducts.consequence (fun _ _ holds => ⟨holds.1, known _ _ holds.2⟩) (fun _ _ holds => ⟨holds.1, value _ _ _ holds.2⟩)
    fun _ _ holds => ⟨holds.1, error _ _ _ holds.2⟩

theorem given (conducts : Conducts P pid visit F program Q E)
    (known : ∀ temporary w, G.holds temporary w → F.holds temporary w) : Conducts P pid visit G program Q E :=
  conducts.weaken known (fun _ _ _ => id) fun _ _ _ => id

theorem ofExcept {β : Type} {result : Result β} {next : β → Program α}
    (ok : ∀ x, result = .ok x → Conducts P pid visit F (next x) Q E) (error : ∀ e, result = .error e → ∀ temporary w,
    F.holds temporary w → (E e).holds temporary w) : Conducts P pid visit F ((Prog.ofExcept result).bind next) Q E :=
  ofExcept_bind ok fun e is _ _ holds => ⟨holds.1, error e is _ _ holds.2⟩

theorem fact {p : Prop} (known : ∀ temporary w, F.holds temporary w → p)
    (rest : p → Conducts P pid visit F program Q E) : Conducts P pid visit F program Q E :=
  Protocol.Safe.given (fun _ _ holds => known _ _ holds.2) rest

theorem objectSha {next : String → Program α} (there : ∀ temporary w, F.holds temporary w → ∃ stored, w.objects key =
    some stored) (rest : ∀ hash, Conducts P pid visit (F.and (.object key fun stored => P.sha256 stored = hash))
    (next hash) Q E) : Conducts P pid visit F ((Prog.request (I := actions) (.objectSha key) id).bind next) Q E := by
  refine act (fun r => F.and (.object key fun stored => r = .ok (P.sha256 stored))) nofun (fun _ _ _ => trivial)
    (fun r s w' _ holds _ executed => ?_) fun r => ofExcept (fun hash is => (rest hash).given ?_) ?_
  · obtain ⟨stored, object⟩ := there _ _ holds
    cases executed
    exact ⟨holds, stored, object, by rw [object]; rfl⟩
  · rintro temporary w ⟨holds, stored, object, same⟩
    cases is.symm.trans same
    exact ⟨holds, stored, object, rfl⟩
  · rintro error is temporary w ⟨-, _, -, same⟩
    cases is.symm.trans same

end Conducts

open Conducts

theorem get_conducts : Conducts P pid visit (.given (visit.published = true) (.published P key)) (get P key)
    (fun path => .or (.of (path = none ∧ visit.published = false)) (.and (.of (path = some (P.store.objectPath key)))
    (.published P key))) fun error => .of (validateKey key = .error error) := by
  refine ofExcept (fun _ valid => ?_) fun error invalid _ _ _ => invalid
  refine perform (fun r => .and (.of (r = false → visit.published = false))
    (.given (visit.published = true) (.published P key))) nofun (fun _ _ _ => trivial)
    (fun r s w' _ before _ executed => ?_) fun object => ?_
  · cases executed
    refine ⟨fun absent => Bool.eq_false_iff.mpr fun published => ?_, before⟩
    obtain ⟨stored, object, -⟩ := before published
    simp [object] at absent
  by_cases absent : object = false
  · rw [if_pos absent]
    exact value fun _ _ known => .inl ⟨rfl, known.1 absent⟩
  rw [if_neg absent]
  refine perform (fun r => .and (.of (r = false → visit.published = false)) (.given (r = true) (.published P key)))
    nofun (fun _ _ _ => trivial) (fun r s w' inv known _ executed => ?_) fun described => ?_
  · cases executed
    refine ⟨fun none => Bool.eq_false_iff.mpr fun published => ?_, fun some => ?_⟩
    · obtain ⟨stored, -, metadata⟩ := known.2 published
      simp [metadata] at none
    · exact inv.intact key (isSome_iff_ne_none.mp some)
  by_cases none : described = false
  · rw [if_pos none]
    exact value fun _ _ known => .inl ⟨rfl, known.1 none⟩
  rw [if_neg none]
  refine act (fun r => .and (.published P key) (.object key fun stored => r = .ok ⟨key, P.sha256 stored, 1⟩)) nofun
    (fun _ _ _ => trivial) (fun r s w' _ known _ executed => ?_) fun metadata => ofExcept (fun document read => ?_) ?_
  · cases executed
    obtain ⟨stored, object, metadata⟩ := known.2 (Bool.eq_true_of_not_eq_false none)
    exact ⟨⟨stored, object, metadata⟩, stored, object, by rw [metadata]; rfl⟩
  · refine objectSha (fun _ _ ⟨⟨stored, object, _⟩, _⟩ => ⟨stored, object⟩) fun hash => ?_
    split
    · exact value fun _ _ known => .inr ⟨rfl, known.1.1⟩
    · rename_i mismatch
      refine error ?_
      rintro _ w ⟨⟨-, stored, object, is⟩, other, object', same⟩
      cases read.symm.trans is
      cases object.symm.trans object'
      exact absurd (by rw [same]) mismatch
  · rintro error is _ w ⟨-, _, -, same⟩
    cases is.symm.trans same

theorem unlinkTemporary_conducts (absent : ∀ temporary w, F.holds temporary w → F.holds none w) :
    Conducts P pid visit F unlinkTemporary (fun _ => F) E := by
  refine act (fun _ => F) nofun (fun _ _ _ => trivial) (fun r s w' _ known extended executed => ?_)
    fun _ => value fun _ _ => id
  have gone : w'.temporary pid = none := by
    cases executed
    exact update_self _ _ _
  rw [gone]
  exact F.lasting extended (absent _ _ known)

section Put
variable (asked : visit.request = .put key (some source))
include asked

theorem writeMetadata_conducts : Conducts P pid visit (.object key (· = source)) (writeMetadata P key) (fun
    path => .and (.of (path = P.store.objectPath key)) (.and (.object key (· = source)) (.published P key))) E := by
  refine objectSha (fun _ _ ⟨stored, object, _⟩ => ⟨stored, object⟩) fun hash => ?_
  refine perform (fun _ => .and (.object key (· = source)) (.published P key)) nofun (fun w visited known => ?_)
    (fun r s w' _ known _ executed => ?_) fun _ => value fun _ _ known => ⟨rfl, known⟩
  · obtain ⟨⟨_, object, rfl⟩, stored, object', rfl⟩ := known
    obtain rfl := some.inj (object.symm.trans object')
    exact ⟨_, ⟨visit.published, by rw [visited, ← asked]⟩, object, rfl⟩
  · obtain ⟨⟨_, object, rfl⟩, stored, object', rfl⟩ := known
    obtain rfl := some.inj (object.symm.trans object')
    cases executed
    exact ⟨⟨_, object, rfl⟩, _, object, update_self _ _ _⟩

variable (injective : Function.Injective P.sha256)
include injective

theorem compared {program : Program α} {hash : String}
    (equal : Conducts P pid visit (.and F (.object key (· = source))) program Q E) (taken : ∀ temporary w, (Fact.object
    key (· ≠ source)).holds temporary w → (E collision).holds temporary w) : Conducts P pid visit (.and F (.object
    key fun stored => P.sha256 stored = hash)) (if hash = P.sha256 source then program else .raise collision) Q E := by
  split
  · rename_i hash_eq
    subst hash_eq
    exact equal.given fun _ _ ⟨known, stored, object, same⟩ => ⟨known, stored, object, injective same⟩
  · rename_i other
    refine error fun _ _ ⟨_, stored, object, same⟩ => taken _ _ ⟨stored, object, ?_⟩
    rintro rfl
    exact other same.symm

theorem publish_conducts : Conducts P pid visit (.of True) (publish key source)
    (fun _ => .object key (· = source)) fun error => .and (.of (error = collision)) (.object key (· ≠ source)) := by
  refine perform (fun _ => .copied source) nofun (fun _ _ _ => trivial) (fun r s w' _ _ _ executed => ?_) fun _ => ?_
  · cases executed
    exact update_self _ _ _
  refine act (fun r => .and (.copied source) (.or (.and (.of (r = .ok true)) (.object key (· = source)))
    (.and (.of (r = .ok false)) (.object key fun _ => True)))) nofun
    (fun w visited own => ⟨source, ⟨visit.published, by rw [visited, ← asked]⟩, own⟩)
    (fun r s w' _ (own : _ = some source) _ executed => ?_) fun _ => ofExcept (fun linked is => ?_) ?_
  · simp only [exec, own] at executed
    split at executed
    · rename_i stored _ object _
      cases executed
      exact ⟨own, .inr ⟨rfl, stored, object, trivial⟩⟩
    · rename_i bytes _ is
      cases is
      cases executed
      exact ⟨own, .inl ⟨rfl, source, update_self _ _ _, rfl⟩⟩
    · rename_i absent
      cases absent
  · by_cases first : linked = true
    · rw [if_pos first]
      refine value ?_
      rintro _ w ⟨-, ⟨-, object⟩ | ⟨other, -⟩⟩
      · exact object
      · cases first.symm.trans (ok.inj (is.symm.trans other))
    rw [if_neg first]
    refine given (F := .and (.copied source) (.object key fun _ => True))
      (objectSha (fun _ _ ⟨_, stored, object, _⟩ => ⟨stored, object⟩) fun hash => ?_) ?_
    · refine act (fun r => .and (.of (r = .ok (P.sha256 source))) (.object key fun stored => P.sha256 stored = hash))
        nofun (fun _ _ _ => trivial) (fun r s w' _ known _ executed => ?_)
        fun r => ofExcept (fun copied read => ?_) ?_
      · obtain ⟨⟨(own : _ = some source), -⟩, hashed⟩ := known
        cases executed
        exact ⟨by rw [own]; rfl, hashed⟩
      · refine fact (fun _ _ known => ok.inj (read.symm.trans known.1)) ?_
        rintro rfl
        exact compared asked injective (value fun _ _ known => known.2) fun _ _ taken => ⟨rfl, taken⟩
      · rintro error failed _ w ⟨same, -⟩
        cases failed.symm.trans same
    · rintro _ w ⟨own, ⟨yes, -⟩ | ⟨-, occupied⟩⟩
      · exact absurd (ok.inj (is.symm.trans yes)) first
      · exact ⟨own, occupied⟩
  · rintro error failed _ w ⟨-, ⟨is, -⟩ | ⟨is, -⟩⟩
    · cases failed.symm.trans is
    · cases failed.symm.trans is

theorem put_conducts :
    Conducts P pid visit (.given (visit.published = true) (.published P key)) (put P key (some source)) (fun
    path => .and (.of (path = P.store.objectPath key)) (.and (.object key (· = source)) (.published P key))) fun error
    => .or (.of (validateKey key = .error error)) (.and (.of (error = collision)) (.object key (· ≠ source))) := by
  refine .bind (get_conducts.weaken (fun _ _ => id) (fun _ _ _ => id) fun _ _ _ => .inl) fun existing => ?_
  by_cases here : existing.isSome = true
  · rw [if_pos here]
    refine given (F := .published P key) (objectSha (fun _ _ ⟨stored, object, _⟩ => ⟨stored, object⟩) fun hash => ?_) ?_
    · exact compared asked injective (value fun _ _ known => ⟨rfl, known.2, known.1⟩) fun _ _ taken => .inr ⟨rfl, taken⟩
    · rintro _ w (⟨rfl, -⟩ | ⟨-, published⟩)
      · cases here
      · exact published
  rw [if_neg here]
  refine perform (fun r => .given (r = true) (.object key fun _ => True)) nofun (fun _ _ _ => trivial)
    (fun r s w' _ _ _ executed => ?_) fun there => ?_
  · cases executed
    intro some
    obtain ⟨stored, object⟩ := isSome_iff_exists.mp some
    exact ⟨stored, object, trivial⟩
  by_cases occupied : there = true
  · rw [if_pos occupied]
    refine given (F := .object key fun _ => True) (objectSha (fun _ _ ⟨stored, object, _⟩ => ⟨stored, object⟩)
      fun hash => ?_) fun _ _ known => known occupied
    exact compared asked injective ((writeMetadata_conducts asked).given fun _ _ => And.right)
      fun _ _ taken => .inr ⟨rfl, taken⟩
  rw [if_neg occupied]
  refine perform (fun _ => .of True) nofun (fun _ _ _ => trivial) (fun _ _ _ _ _ _ _ => trivial) fun _ => ?_
  have linked : Conducts P pid visit (.of True) ((publish key source).ensuring unlinkTemporary)
      (fun _ => .object key (· = source)) fun error => .and (.of (error = collision)) (.object key (· ≠ source)) :=
    ensuring (publish_conducts asked injective) (fun _ => unlinkTemporary_conducts fun _ _ => id)
      fun _ => unlinkTemporary_conducts fun _ _ => id
  exact .bind (linked.weaken (fun _ _ => id) (fun _ _ _ => id) fun _ _ _ => .inr)
    fun _ => writeMetadata_conducts asked

end Put

theorem run_conducts (injective : Function.Injective P.sha256) (visit : Visit) :
    Conducts P pid visit (.given (visit.published = true) (.published P visit.request.key)) (visit.request.run P)
      (fun outcome => .correct P visit (.ok outcome)) fun error => .correct P visit (.error error) := by
  obtain ⟨request, published⟩ := visit
  match request with
  | .get key =>
    refine get_conducts.weaken (fun _ _ => id) (fun path _ w known => ?_) fun error _ w invalid => ?_
    · refine (fun _ => ?_ : Correct P w _ _)
      rcases known with ⟨rfl, unpublished⟩ | ⟨rfl, published⟩
      · exact .inl ⟨rfl, unpublished⟩
      · exact .inr ⟨rfl, published⟩
    · exact (fun valid => by cases valid.symm.trans invalid : Correct P w ⟨.get key, published⟩ (.error error))
  | .put key none => exact error fun _ w _ => (fun _ => trivial : Correct P w _ _)
  | .put key (some source) =>
    refine .bind ((put_conducts rfl injective).weaken (fun _ _ => id) (fun _ _ _ => id)
      fun error _ w known => ?_) fun path => value ?_
    · refine (fun valid => ?_ : Correct P w _ _)
      rcases known with invalid | ⟨rfl, taken⟩
      · cases valid.symm.trans invalid
      · exact .inr ⟨rfl, taken⟩
    · rintro _ w ⟨rfl, ⟨_, object, rfl⟩, published⟩
      exact fun _ => .inl ⟨rfl, object, published⟩

theorem serve_safe (injective : Function.Injective P.sha256) (request : Request) :
    (discipline P).Obeys pid (fun _ => True) (request.serve P) := by
  refine .act (fun (visit : Visit) s => visit.request = request ∧
      Knows pid visit (.given (visit.published = true) (.published P request.key)) s) (fun _ _ _ => trivial)
    (fun visit => Protocol.Stable.and (fun _ _ _ _ => id) stable_knows) (fun visit s s' inv _ performs _ => ?_)
    fun (visit : Visit) => ?_
  · obtain ⟨_, executed, -⟩ := performs
    obtain ⟨world', trace'⟩ := s'
    cases executed
    refine ⟨rfl, update_self _ _ _, fun there => ?_⟩
    exact inv.intact request.key (isSome_iff_ne_none.mp (Bool.and_eq_true_iff.mp there).2)
  refine .given (fun _ _ (holds : visit.request = request ∧ _) => holds.1) fun same => ?_
  subst same
  have answer (outcome : Result (Option String)) : (discipline P).Obeys pid (Knows pid visit (.correct P visit outcome))
      (Prog.act (.answer outcome) fun _ => (.pure () : Program Unit)) :=
    act (fun _ _ => True) (fun _ _ holds => ⟨visit, holds.1, holds.2⟩) (fun _ => .true)
      (fun _ _ _ _ _ _ _ => trivial) fun _ _ _ _ => trivial
  exact .attempt_bind (.strengthen (run_conducts injective visit) fun _ _ holds => holds.2)
    (fun _ => answer _) fun _ => answer _

end Conduct

def requests (P : Platform) : Set (Program Unit) :=
  Set.range (Request.serve P)

def World.empty : World := ⟨fun _ => none, fun _ => none, fun _ => none, fun _ => none⟩

/-- What holds of a store in which processes put and get, and in whatever it becomes. -/
structure Consistent (P : Platform) (c c' : Config (machine P) Error) : Prop where
  kept : ∀ key stored, c.world.objects key = some stored → c'.world.objects key = some stored
  published : ∀ key, Published P c.world key → Published P c'.world key
  linked : ∀ key stored, c.world.objects key = some stored → c.trace.countP (isLink key) = 1 ∧ ∃ pid visit,
    (⟨pid, .call (.put key (some stored)), visit⟩ : Event actions) ∈ c.trace ∧
      (⟨pid, .link key, (.ok true : Result Bool)⟩ : Event actions) ∈ c.trace
  answered : ∀ pid outcome visit, (⟨pid, .answer outcome, visit⟩ : Event actions) ∈ c.trace →
    Correct P c.world visit outcome
  /-- A put changes nothing while its key has other bytes. -/
  unchanged : ∀ pid action next, c.processes pid = some (.act action next) → ∀ key source,
    Asked c.world pid (.put key (some source)) → (∃ stored, c.world.objects key = some stored ∧ stored ≠ source) →
    ∀ response s', Performs pid action response c.toShared s' →
      s'.world.objects = c.world.objects ∧ s'.world.metadata = c.world.metadata
  progress : ∀ pid action next, c.processes pid = some (.act action next) →
    ∃ response s', Performs pid action response c.toShared s'

section Runs
variable {pid : ℕ} {action : Act} {s s' : Shared (machine P)} {c c' : Config (machine P) Error}

theorem unchanged_of_taken {key : String} {source : ByteArray}
    {response : action.Res} (granted : grants P pid s.world action) (asked : Asked s.world pid (.put key (some source)))
    (taken : ∃ stored, s.world.objects key = some stored ∧ stored ≠ source) (performs : Performs
    pid action response s s') : s'.world.objects = s.world.objects ∧ s'.world.metadata = s.world.metadata := by
  obtain ⟨_, executed, -⟩ := performs
  obtain ⟨stored, object, other⟩ := taken
  have own {key' : String} {source' : ByteArray} (asked' : Asked s.world pid (.put key' (some source'))) :
      key' = key ∧ source' = source := by
    obtain ⟨_, visit⟩ := asked
    obtain ⟨_, visit'⟩ := asked'
    cases visit.symm.trans visit'
    exact ⟨rfl, rfl⟩
  have change := change_of_exec executed
  generalize s'.world = w' at change ⊢
  cases change with
  | kept _ objects metadata => exact ⟨objects, metadata⟩
  | linked free =>
    obtain ⟨_, asked', -⟩ := granted
    obtain ⟨rfl, rfl⟩ := own asked'
    cases object.symm.trans free
  | replaced =>
    obtain ⟨_, asked', object', -⟩ := granted
    obtain ⟨rfl, rfl⟩ := own asked'
    exact absurd (some.inj (object.symm.trans object')) other

theorem enabled (granted : grants P pid s.world action) : ∃ response s', Performs pid action response s s' := by
  have able : ∃ w' response, exec P pid s.world action = some (w', response) := by
    cases action with
    | link key =>
      simp only [exec]
      split <;> exact ⟨_, _, rfl⟩
    | answer outcome =>
      obtain ⟨visit, asked, -⟩ := granted
      exact ⟨s.world, visit, by rw [exec, asked]; rfl⟩
    | _ => exact ⟨_, _, rfl⟩
  obtain ⟨w', response, executed⟩ := able
  exact ⟨response, ⟨w', ⟨pid, action, response⟩ :: s.trace⟩, (), executed, rfl⟩

theorem admits_requests (injective : Function.Injective P.sha256) : (discipline P).Admits (requests P) := by
  rintro _ ⟨request, rfl⟩ pid
  exact serve_safe injective request

theorem Extends.of_reaches (injective : Function.Injective P.sha256) (sound : (discipline P).Sound c)
    (reaches : Reaches (requests P) anyStep c c') : Extends c.world c'.world := by
  refine sound.invariant (K := fun s => Extends c.world s.world) (admits_requests injective) ?_
    (fun _ _ => id)
    ⟨id, id⟩ reaches
  intro pid action response s s' inv extended granted _ performs
  obtain ⟨_, executed, -⟩ := performs
  have step := Inv.extends inv granted (change_of_exec executed)
  exact ⟨fun there => step.objects (extended.objects there), fun there => step.metadata (extended.metadata there)⟩

/-- In every run of puts and gets, the store stays consistent. -/
theorem store_consistent (injective : Function.Injective P.sha256) (first : Reaches (requests P)
    anyStep (initial World.empty) c) (later : Reaches (requests P) anyStep c c') : Consistent P c c' := by
  have start : (discipline P).inv ⟨World.empty, []⟩ :=
    ⟨fun _ there => absurd rfl there, fun _ => rfl, nofun, nofun, nofun⟩
  have sound := Protocol.Sound.reaches (admits_requests injective) (.initial start) first
  have extended := Extends.of_reaches injective sound later
  refine ⟨fun _ _ => extended.objects, fun _ => extended.published, fun key stored object => ?_, sound.inv.answered,
    fun pid action next alive key source asked taken response s' performs => ?_,
    fun pid action next alive => enabled (sound.granted alive)⟩
  · refine ⟨?_, sound.inv.origin key stored object⟩
    rw [sound.inv.linked key, object]
    rfl
  · exact unchanged_of_taken (sound.granted alive) asked taken performs

end Runs

def sampleKey : String := .ofList (replicate 64 'a')

def samplePlatform : Platform := ⟨⟨"cas", fun _ _ => .ok sampleKey⟩, Bridge.bytesText⟩

def interruptedPut : List (Move (machine samplePlatform) Error) :=
  let put := Move.spawn (Request.serve samplePlatform (.put sampleKey (some ⟨#[7]⟩)))
  put :: replicate 6 (.perform 0 ()) ++ [.crash 0, put] ++ replicate 8 (.perform 1 ()) ++
    .spawn (Request.serve samplePlatform (.get sampleKey)) :: replicate 6 (.perform 2 ())

def finds (c : Config (machine samplePlatform) Error) : Bool :=
  match c.trace with
  | ⟨_, .answer (.ok (some path)), _⟩ :: _ => path = samplePlatform.store.objectPath sampleKey
  | _ => false

theorem interrupted_put_repaired : ∃ c, finds c = true ∧ Consistent samplePlatform c c := by
  have subset : ∀ m ∈ interruptedPut, m.calls ⊆ requests samplePlatform := by
    intro m member
    simp only [interruptedPut, mem_cons, mem_append, mem_replicate, not_mem_nil, or_false]
      at member
    rcases member with (((rfl | ⟨-, rfl⟩) | rfl | rfl) | ⟨-, rfl⟩) | rfl | ⟨-, rfl⟩
    all_goals simp [Move.calls, requests]
  have passed : ((initial World.empty).simulate (fun _ _ => true) interruptedPut).any finds = true := by
    decide
  obtain ⟨c, reaches, found⟩ := exists_reaches (fun _ _ _ => (trivial : anyStep _ _)) subset passed
  exact ⟨c, found, store_consistent Bridge.bytesText_injective reaches .refl⟩

end VideoPoster.CasStore
