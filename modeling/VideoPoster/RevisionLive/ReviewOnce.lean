import VideoPoster.Interleaving.RelyGuarantee
import VideoPoster.RevisionLive.Review

/-!
# How often a visual review is asked for
-/

namespace VideoPoster.RevisionLive.Review
open Python Interleaving Program Config Function World Dict List Nat

/-! ## What the reviewer decides -/

section Decisions
variable {service : Service} {response : Json} {scene resultSha256 : String} {decision : Dict}

theorem guard_eq_some {p : Prop} [Decidable p] {u : Unit} : (guard p : Option Unit) = some u ↔ p := by
  by_cases holds : p <;> simp [guard, holds, pure, failure]

theorem verdictResult_known {result : Dict} {code : String}
    (is : verdictResult result scene resultSha256 = some (some code)) : code ∈ failureCodes := by
  simp only [verdictResult, Option.bind_eq_bind, Option.bind_eq_some_iff] at is
  obtain ⟨-, -, verdict, -, reason, -, -, -, rest⟩ := is
  split at rest
  · obtain ⟨_, -, none⟩ := Option.bind_eq_some_iff.mp rest
    cases none
  · simp only [Option.bind_eq_some_iff] at rest
    obtain ⟨-, -, found, -, _, known, same⟩ := rest
    cases same
    exact guard_eq_some.1 known

theorem parseReview_eq_ok (parsed : parseReview service response scene resultSha256 = .ok decision) : ∃ code :
    Option String, decision = decisionOf service scene resultSha256 code ∧ ∀ known ∈ code, known ∈ failureCodes := by
  unfold parseReview at parsed
  split at parsed
  · rename_i code is
    refine ⟨code, (Except.ok.inj parsed).symm, fun known same => ?_⟩
    simp only [reviewedCode, Option.bind_eq_bind, Option.bind_eq_some_iff] at is
    obtain ⟨_, -, result, -, is⟩ := is
    exact verdictResult_known (is.trans (congrArg some same))
  · cases parsed

def Reviewed (service : Service) (decision : Dict) : Prop :=
  ∃ response scene resultSha256, parseReview service response scene resultSha256 = .ok decision

def Image.Decided (image : Image) (decision : Dict) : Prop :=
  get decision "scene_id" = some (.str image.scene) ∧
    get decision "result_sha256" = some (.str image.resultSha256)

theorem Reviewed.decisionOf {image : Image} (reviewed : Reviewed service decision) (decided : image.Decided decision) :
    ∃ code : Option String, decision = decisionOf service image.scene image.resultSha256 code ∧
      ∀ known ∈ code, known ∈ failureCodes := by
  obtain ⟨response, scene, resultSha256, parsed⟩ := reviewed
  obtain ⟨code, rfl, known⟩ := parseReview_eq_ok parsed
  obtain ⟨⟨⟩, ⟨⟩⟩ : some (Json.str scene) = some (.str image.scene) ∧
    some (Json.str resultSha256) = some (.str image.resultSha256) := decided
  exact ⟨code, rfl, known⟩

theorem blank_openRouter (service : Service) :
    blank ("OpenRouter:" ++ service.model ++ ":" ++ service.authority) = false := by
  simp [blank, isSpace]

theorem checkDecision_decisionOf (image : Image) (code : Option String) :
    checkDecision image image.resultSha256 (decisionOf service image.scene image.resultSha256 code) = .ok () := by
  have named := blank_openRouter service
  cases code with
  | none => simp [checkDecision, decisionOf, keysWithin, Dict.hasKey, Dict.get, named]
  | some code => simp [checkDecision, decisionOf, keysWithin, Dict.hasKey, Dict.get, textOf, named]

theorem verdictOf_decisionOf (image : Image) (code : Option String) :
    verdictOf (decisionOf service image.scene image.resultSha256 code) =
      ⟨code.isNone, "OpenRouter:" ++ service.model ++ ":" ++ service.authority, code⟩ := by
  cases code <;> simp [verdictOf, decisionOf, Dict.get, textOf]

end Decisions

/-! ## The discipline -/

def asks (service : Service) (key : String) : Event actions → Bool
  | ⟨_, .send request, _⟩ => service.digest request.scene request.resultSha256 = key
  | _ => false

def reserves (key : String) : Event actions → Bool
  | ⟨_, .reserve other _ _, .ok _⟩ => other = key
  | _ => false

/-- No process has asked more often than it has entered the key, a key is entered once, stored decisions
are the reviewer's, and no verdict is recorded. -/
structure Inv (service : Service) (s : Shared machine) : Prop where
  entitled : ∀ key pid, countBy (asks service key) pid s.trace ≤ countBy (reserves key) pid s.trace
  once : ∀ key, s.trace.countP (reserves key) ≤ if s.world.ledger.hasKey key then 1 else 0
  stored : ∀ requestId decision, s.world.decisions requestId = some decision → Reviewed service decision
  unrecorded : ∀ requestId, s.world.verdicts requestId = none ∧ s.world.qa requestId = none

def Entitled (service : Service) (key : String) (pid : ℕ) : Assertion machine := fun s =>
  countBy (asks service key) pid s.trace < countBy (reserves key) pid s.trace

def grants (service : Service) (pid : ℕ) (s : Shared machine) : Act → Prop
  | .send request => Entitled service (service.digest request.scene request.resultSha256) pid s
  | .writeDecision _ decision => Reviewed service decision
  | .commit _ _ | .writeQa _ _ => False
  | _ => True

def Act.free : Act → Prop
  | .send _ | .writeDecision _ _ | .commit _ _ | .writeQa _ _ => False
  | _ => True

section Steps
variable {service : Service} {pid : ℕ} {action : Act} {response : action.Res} {s s' : Shared machine}

theorem asks_eq_true {key : String} {e : Event actions} (is : asks service key e = true) :
    ∃ request, e.action = .send request ∧ service.digest request.scene request.resultSha256 = key := by
  obtain ⟨process, action, response⟩ := e
  cases action with
  | send request => exact ⟨request, rfl, of_decide_eq_true is⟩
  | _ => cases is

theorem performs_cases (performs : Performs pid action response s s') :
    (s'.world.ledger = s.world.ledger ∧ s'.world.decisions = s.world.decisions ∧
      s'.world.verdicts = s.world.verdicts ∧ s'.world.qa = s.world.qa ∧
      ∀ key, reserves key ⟨pid, action, response⟩ = false) ∨
    (∃ key capText reviewCount, action = .reserve key capText reviewCount ∧ s.world.ledger.hasKey key = false ∧
      s'.world = { s.world with ledger := s.world.ledger ++ [(key, .str capText)] }) ∨
    (∃ requestId decision, action = .writeDecision requestId decision ∧ s'.world = { s.world with
        decisions := update s.world.decisions requestId (some decision) }) ∨
    (∃ requestId verdict, action = .commit requestId verdict) ∨
    ∃ requestId file, action = .writeQa requestId file := by
  obtain ⟨w, trace⟩ := s
  obtain ⟨w', trace'⟩ := s'
  obtain ⟨oracle, executed, -⟩ := performs
  change exec oracle pid w action = some (w', response) at executed
  cases action with
  | commit requestId verdict => exact .inr (.inr (.inr (.inl ⟨requestId, verdict, rfl⟩)))
  | writeQa requestId file => exact .inr (.inr (.inr (.inr ⟨requestId, file, rfl⟩)))
  | reserve key capText reviewCount =>
    simp only [exec] at executed
    split at executed
    · cases executed
      exact .inl ⟨rfl, rfl, rfl, rfl, fun _ => rfl⟩
    · rename_i free
      simp only [exhausted, Bool.or_eq_true, not_or, Bool.not_eq_true] at free
      rcases written_eq (Option.some.inj executed) with ⟨rfl, refused⟩ | ⟨rfl, -⟩
      · refine .inl ⟨rfl, rfl, rfl, rfl, fun _ => ?_⟩
        cases response with
        | ok value => exact absurd rfl refused
        | error e => rfl
      · exact .inr (.inl ⟨key, capText, reviewCount, rfl, free.1, rfl⟩)
  | writeDecision requestId decision =>
    rcases written_eq (Option.some.inj executed) with ⟨rfl, -⟩ | ⟨rfl, -⟩
    · exact .inl ⟨rfl, rfl, rfl, rfl, fun _ => rfl⟩
    · exact .inr (.inr (.inl ⟨requestId, decision, rfl, rfl⟩))
  | writeIntent | keep =>
    rcases written_eq (Option.some.inj executed) with ⟨rfl, -⟩ | ⟨rfl, -⟩ <;>
      exact .inl ⟨rfl, rfl, rfl, rfl, fun _ => rfl⟩
  | _ =>
    cases executed
    exact .inl ⟨rfl, rfl, rfl, rfl, fun _ => rfl⟩

theorem hasKey_append (ledger : Dict) (entered key : String) (value : Json) :
    hasKey (ledger ++ [(entered, value)]) key = (ledger.hasKey key || decide (entered = key)) := by
  simp [hasKey]

theorem once_of_performs (inv : Inv service s) (performs : Performs pid action response s s') (granted : grants service
    pid s action) (key : String) : s'.trace.countP (reserves key) ≤ if s'.world.ledger.hasKey key then 1 else 0 := by
  have extended : s'.trace = ⟨pid, action, response⟩ :: s.trace := performs.choose_spec.2
  have before := inv.once key
  rw [extended, countP_cons]
  rcases performs_cases performs with ⟨ledger, -, -, -, quiet⟩ |
    ⟨entered, capText, count, rfl, absent, world⟩ | ⟨_, _, rfl, world⟩ | ⟨_, _, rfl⟩ | ⟨_, _, rfl⟩
  · rw [quiet key, ledger]
    exact before
  · rw [world, hasKey_append]
    by_cases same : entered = key
    · subst same
      rw [absent] at before
      simp only [decide_true, Bool.or_true, if_true]
      have : (if reserves entered ⟨pid, .reserve entered capText count, response⟩ = true then 1 else 0) ≤ 1 := by
        split <;> omega
      simp only [Bool.false_eq_true, if_false] at before
      omega
    · have foreign : reserves key ⟨pid, .reserve entered capText count, response⟩ = false := by
        cases response with
        | ok value => exact decide_eq_false same
        | error e => rfl
      simpa [foreign, same] using before
  · rw [world]
    exact before
  · exact granted.elim
  · exact granted.elim

theorem Inv.step (inv : Inv service s) (granted : grants service pid s action)
    (performs : Performs pid action response s s') : Inv service s' := by
  refine ⟨fun key actor => ?_, once_of_performs inv performs granted, ?_, ?_⟩
  · rw [performs.countBy, performs.countBy]
    by_cases asking : (asks service key ⟨pid, action, response⟩ && decide (pid = actor)) = true
    · obtain ⟨is, same⟩ := Bool.and_eq_true_iff.mp asking
      obtain ⟨request, rfl, rfl⟩ := asks_eq_true is
      obtain rfl := of_decide_eq_true same
      rw [if_pos asking]
      exact (succ_le_of_lt granted).trans (le_add_right _ _)
    · rw [if_neg asking]
      exact (inv.entitled key actor).trans (le_add_right _ _)
  · intro requestId decision there
    rcases performs_cases performs with ⟨-, same, -⟩ | ⟨_, _, _, -, -, world⟩ | ⟨written, new, rfl, world⟩ |
      ⟨_, _, rfl⟩ | ⟨_, _, rfl⟩
    · exact inv.stored requestId decision (same ▸ there)
    · rw [world] at there
      exact inv.stored requestId decision there
    · rw [world] at there
      by_cases is : requestId = written
      · simp only [is, update_self] at there
        exact Option.some.inj there ▸ granted
      · simp only [update_of_ne is] at there
        exact inv.stored requestId decision there
    · exact granted.elim
    · exact granted.elim
  · intro requestId
    rcases performs_cases performs with ⟨-, -, verdicts, qa, -⟩ | ⟨_, _, _, -, -, world⟩ | ⟨_, _, -, world⟩ |
      ⟨_, _, rfl⟩ | ⟨_, _, rfl⟩
    · rw [verdicts, qa]
      exact inv.unrecorded requestId
    · rw [world]
      exact inv.unrecorded requestId
    · rw [world]
      exact inv.unrecorded requestId
    · exact granted.elim
    · exact granted.elim

end Steps

def discipline (service : Service) : Protocol machine where
  inv := Inv service
  grants := grants service
  preserves := Inv.step
  survives := fun _ inv => ⟨inv.entitled, inv.once, inv.stored, inv.unrecorded⟩

/-! ## What a review does -/

section Conduct
variable {service : Service} {pid : ℕ} {α : Type}

theorem granted_of_free (pid : ℕ) (action : Act) (free : action.free) (s : Shared machine)
    (_ : Inv service s) : grants service pid s action := by
  cases action with
  | send | writeDecision | commit | writeQa => cases free
  | _ => trivial

variable {action : Act}

theorem conforms_of_free {program : Program α} (only : program.Only Act.free) : (discipline service).Conforms program :=
  .of_only granted_of_free only

theorem only_pictures (images : List (String × String)) : (pictures images).Only Act.free := by
  induction images with
  | nil => trivial
  | cons image rest ih =>
    exact .request trivial fun _ => .bind (.ofExcept _) fun _ =>
      .bind (.ofExcept _) fun _ => .bind (.ofExcept _) fun _ => .bind ih fun _ => trivial

theorem framed_entitled (key : String) : (discipline service).Framed pid Act.free (Entitled service key pid) := by
  refine .of_keep ?_ fun _ => id
  intro actor action response s s' _ _ performs own entitled
  have none : (asks service key ⟨actor, action, response⟩ && decide (actor = pid)) = false := by
    by_contra asking
    obtain ⟨is, same⟩ := Bool.and_eq_true_iff.mp (Bool.of_not_eq_false asking)
    obtain ⟨_, rfl, -⟩ := asks_eq_true is
    exact own (of_decide_eq_true same)
  rw [Entitled, performs.countBy, performs.countBy, none]
  exact lt_of_lt_of_le entitled (le_add_right _ _)

theorem entitled_of_reserve {key capText : String} {reviewCount : ℕ} {s s' : Shared machine}
    (inv : Inv service s) (performs : Performs (M := machine) pid (.reserve key capText reviewCount)
      (.ok () : Result Unit) s s') : Entitled service key pid s' := by
  have entered : reserves key ⟨pid, .reserve key capText reviewCount, (.ok () : Result Unit)⟩ = true :=
    decide_eq_true rfl
  rw [Entitled, performs.countBy, performs.countBy, entered, decide_eq_true rfl]
  exact lt_succ_of_le (inv.entitled key pid)

section
variable (image : Image)

theorem safe_visualQa (packetSha256 : String) : (discipline service).Safe pid (fun _ => True)
    (visualQa service image packetSha256) (fun decision _ => Reviewed service decision) fun _ _ => True := by
  let key := service.digest image.scene packetSha256
  refine .bind (Q := fun (request : Request) _ =>
    request.scene = image.scene ∧ request.resultSha256 = packetSha256) ?_ fun request => ?_
  · unfold prepared
    refine .bind (conforms_of_free (only_request (by trivial)) pid) fun _ => ?_
    refine .bind (conforms_of_free (only_act (by trivial)) pid) fun _ => ?_
    refine .check fun _ => ?_
    refine .bind (conforms_of_free (only_request (by trivial)) pid) fun _ => ?_
    refine .check fun _ => ?_
    refine .bind (conforms_of_free (only_request (by trivial)) pid) fun assets => ?_
    refine .bind (conforms_of_free (only_pictures _) pid) fun content => ?_
    exact fun _ _ _ => ⟨rfl, rfl⟩
  refine .given (fun _ _ (known : request.scene = image.scene ∧ request.resultSha256 = packetSha256) => known)
    fun ⟨scene, sha256⟩ => ?_
  refine .bind (Q := fun _ => Entitled service key pid) ?_ fun _ => ?_
  · refine .request (fun _ _ _ => trivial) (fun _ => (framed_entitled key).stable)
      (fun _ => .true) ?_ fun _ _ _ _ _ _ _ _ _ => trivial
    rintro r ⟨⟩ s s' rfl inv _ performs _
    exact entitled_of_reserve inv performs
  refine .bind (Q := fun _ => Entitled service key pid) ?_ fun _ => ?_
  · have secret : Act.free .secret := trivial
    exact ((framed_entitled key).request secret fun _ _ _ => trivial).weaken (fun _ _ => id) fun _ _ _ => trivial
  refine .bind (Q := fun _ _ => True) ?_ fun response => ?_
  · refine .request (fun s _ entitled => ?_) (fun _ => .true) (fun _ => .true)
      (fun _ _ _ _ _ _ _ _ _ => trivial) fun _ _ _ _ _ _ _ _ _ => trivial
    show Entitled service (service.digest request.scene request.resultSha256) pid s
    rw [scene, sha256]
    exact entitled
  refine .ofExcept_bind (fun decision parsed => ?_) fun _ _ _ _ _ => trivial
  refine .bind (conforms_of_free (only_request (by trivial)) pid) fun _ => ?_
  exact fun _ _ _ => ⟨response, _, _, parsed⟩

theorem conforms_recordVisualQa (resultSha256 : String) (verdict : Verdict) :
    (discipline service).Conforms (recordVisualQa .live image resultSha256 verdict) := by
  refine .bind (.ofExcept _) fun _ => .bind (.ofExcept _) fun _ =>
    .bind (conforms_of_free (only_request trivial)) fun _ =>
      .bind (conforms_of_free (only_request trivial)) fun _ => .bind (.ofExcept _) fun _ => ?_
  exact .raise selfAsserted

theorem safe_decided (packetSha256 : String) : (discipline service).Safe pid (fun _ => True)
    (decided service .live image packetSha256) (fun decision _ => Reviewed service decision) fun _ _ => True := by
  refine .bind (Q := fun (stored : Option Dict) _ =>
    ∀ decision ∈ stored, Reviewed service decision) ?_ fun stored => ?_
  · refine .perform (fun _ _ _ => trivial) (fun _ _ _ _ _ => id) ?_
    rintro r s ⟨world, trace⟩ inv - ⟨oracle, executed, -⟩ - decision there
    cases executed
    exact inv.stored _ decision there
  cases stored with
  | some decision => exact fun _ _ reviewed => reviewed decision rfl
  | none =>
    refine .bind (Q := fun _ _ => True)
      ((conforms_of_free (only_act (by trivial)) pid).strengthen fun _ _ _ => trivial) fun there => ?_
    refine .check fun _ => ?_
    refine .bind (conforms_of_free (only_request (by trivial)) pid) fun _ => ?_
    exact safe_visualQa image packetSha256

theorem safe_judged : (discipline service).Obeys pid (fun _ => True) (judged service .live image) := by
  refine .check fun _ => ?_
  refine .bind (conforms_of_free (only_request (by trivial)) pid) fun _ => ?_
  refine .bind (conforms_of_free (only_request (by trivial)) pid) fun packet => ?_
  refine .bind (safe_decided image packet.resultSha256) fun decision => ?_
  refine .check fun _ => ?_
  refine .bind (Q := fun _ _ => True) ?_ fun _ => conforms_recordVisualQa _ _ _ pid
  exact .request (fun _ _ => id) (fun _ => .true) (fun _ => .true)
    (fun _ _ _ _ _ _ _ _ _ => trivial) fun _ _ _ _ _ _ _ _ _ => trivial

theorem safe_review : (discipline service).Obeys pid (fun _ => True) (review service .live image) := by
  refine .bind (conforms_of_free (only_act (by trivial)) pid) fun verdict => ?_
  refine .bind (conforms_of_free (only_act (by trivial)) pid) fun file => ?_
  cases file with
  | some file => exact Protocol.Conforms.bind (.ofExcept _) (fun _ => .ofExcept _) pid
  | none =>
    cases verdict with
    | some verdict => exact conforms_recordVisualQa _ _ _ pid
    | none => exact safe_judged image

end

theorem discipline_admits : (discipline service).Admits (reviews service) := by
  rintro _ ⟨image, rfl⟩ pid
  exact safe_review image

end Conduct

/-! ## Whole runs -/

variable {service : Service} {c : Config machine Error}

section
variable (reaches : Reaches (reviews service) anyStep (initial start) c)
include reaches

theorem inv_reached : Inv service c.toShared := by
  have start : Inv service ⟨start, []⟩ :=
    ⟨fun _ _ => le_rfl, fun _ => zero_le _, nofun, fun _ => ⟨rfl, rfl⟩⟩
  exact (Protocol.Sound.initial (P := discipline service) start |>.reaches discipline_admits reaches).inv

theorem asked_once (key : String) : c.trace.countP (asks service key) ≤ 1 := by
  have inv := inv_reached reaches
  refine countP_le_one (inv.entitled key) ((inv.once key).trans ?_)
  split <;> omega

end

/-! ## A later review -/

structure Clear (service : Service) (image : Image) (assets : List (String × String)) (code : Option String)
    (oracle : Oracle) : Prop where
  inside : image.inside = true
  failure : oracle.failure = none
  fresh : oracle.fresh = .ok ()
  packet : oracle.packet image = .ok ⟨image.resultSha256, true⟩
  preflight : oracle.preflight = .ok ()
  references : oracle.sameReferences = true
  candidate : oracle.candidate image.result = .ok (true, image.resultSha256)
  manifest : oracle.manifest = .ok assets
  pictures : ∀ entry ∈ (image.result, image.resultSha256) :: assets, ∃ seen mime,
    oracle.picture entry.1 = .ok seen ∧ seen.mime = .ok mime ∧ seen.statSize ≤ byteLimit ∧
      seen.length ≤ byteLimit ∧ seen.sha256 = entry.2
  secret : oracle.secret = .ok ()
  response : ∃ response, oracle.response = some response ∧
    reviewedCode service response image.scene image.resultSha256 = some code
  completedJob : oracle.completedJob = .ok ()

section Later
variable {service : Service} {image : Image} {assets : List (String × String)} {code : Option String}
  {oracle : Oracle} {pid : ℕ} {w w' : World} {α : Type}

theorem ends_request {action : Act} {answer : action.Res → Except Error α} {value : α}
    (found : ∃ response, exec oracle pid w action = some (w', response) ∧ answer response = .ok value) :
    Prog.Ends (M := machine) oracle pid (Prog.request (I := actions) action answer) w (.ok value) w' := by
  obtain ⟨response, executed, ok⟩ := found
  exact ok ▸ .request executed

theorem Clear.written (clear : Clear service image assets code oracle) (changed : World) :
    some (Python.written oracle.failure w changed) = some (changed, .ok ()) := by
  rw [clear.failure]
  rfl

theorem ends_require {condition : Prop} [Decidable condition] {error : Error} (holds : condition) :
    (Program.require condition error).Ends (M := machine) oracle pid w (.ok ()) w := by
  rw [Program.require, Python.require, if_pos holds]
  exact .ofExcept _

theorem ends_pictures {images : List (String × String)} (clear : ∀ entry ∈ images, ∃ seen mime, oracle.picture entry.1 =
    .ok seen ∧ seen.mime = .ok mime ∧ seen.statSize ≤ byteLimit ∧ seen.length ≤ byteLimit ∧
    seen.sha256 = entry.2) : ∃ content, (pictures images).Ends (M := machine) oracle pid w (.ok content) w := by
  induction images with
  | nil => exact ⟨[], .pure _⟩
  | cons entry rest ih =>
    obtain ⟨content, others⟩ := ih fun other member => clear other (.tail _ member)
    obtain ⟨seen, mime, found, known, small, short, same⟩ := clear entry (.head _)
    refine ⟨(mime, entry.2) :: content, ?_⟩
    refine .bind (ends_request ⟨_, rfl, found⟩) (.bind (ends_require small) ?_)
    refine .ofExcept_bind known (.bind (ends_require ⟨short, same⟩) ?_)
    exact .bind others (.pure _)

theorem Clear.ends_prepared (clear : Clear service image assets code oracle) :
    ∃ request, (prepared image image.resultSha256).Ends (M := machine) oracle pid w (.ok request) w := by
  obtain ⟨content, pictures⟩ : ∃ content, (Program.pictures ((image.result, image.resultSha256) :: assets)).Ends
      (M := machine) oracle pid w (.ok content) w := ends_pictures clear.pictures
  refine ⟨⟨image.scene, image.resultSha256, "candidate" :: assets.map Prod.snd, content⟩, ?_⟩
  refine .bind (ends_request ⟨_, rfl, clear.preflight⟩) (.bind (.perform rfl) ?_)
  refine .bind (ends_require clear.references) (.bind (ends_request ⟨_, rfl, clear.candidate⟩) ?_)
  refine .bind (ends_require ⟨rfl, rfl⟩) (.bind (ends_request ⟨_, rfl, clear.manifest⟩) ?_)
  exact .bind pictures (.pure _)

def World.asked (w : World) (service : Service) (image : Image) (receipt : ReviewReceipt) : World :=
  { w with
    ledger := w.ledger ++ [(service.digest image.scene image.resultSha256, .str service.capText)]
    receipts := update w.receipts (service.digest image.scene image.resultSha256) (some receipt) }

section
variable (clear : Clear service image assets code oracle)
include clear

theorem Clear.ends_visualQa (free : w.exhausted (service.digest image.scene image.resultSha256)
    service.reviewCount = false) : ∃ receipt, (visualQa service image image.resultSha256).Ends (M := machine)
    oracle pid w (.ok (decisionOf service image.scene image.resultSha256 code)) (w.asked service image receipt) := by
  obtain ⟨request, prepared⟩ : ∃ request, (prepared image image.resultSha256).Ends (M := machine) oracle pid w
      (.ok request) w := clear.ends_prepared
  obtain ⟨response, answered, accepted⟩ := clear.response
  refine ⟨⟨decisionOf service image.scene image.resultSha256 code, response⟩, .bind prepared ?_⟩
  refine .bind (ends_request ⟨.ok (), (if_neg (by simp [free])).trans (clear.written _), rfl⟩) ?_
  refine .bind (ends_request ⟨_, rfl, clear.secret⟩) ?_
  refine .bind (ends_request ⟨_, rfl, by rw [answered]⟩) ?_
  have parsed : parseReview service response image.scene image.resultSha256 =
      .ok (decisionOf service image.scene image.resultSha256 code) := by
    rw [parseReview, accepted]
  refine .ofExcept_bind parsed ?_
  refine .bind (ends_request ⟨.ok (), clear.written _, rfl⟩) ?_
  exact .pure _

variable {known : Option String}

variable (codes : ∀ code ∈ known, code ∈ failureCodes)
include codes

theorem Clear.ends_recordVisualQa (reviewer : String) : (recordVisualQa .live image image.resultSha256
    ⟨known.isNone, reviewer, known⟩).Ends (M := machine) oracle pid w (.error Program.selfAsserted) w := by
  refine .bind (ends_require ?_) (.bind (ends_require codes) ?_)
  · intro approved
    exact Option.isNone_iff_eq_none.mp approved
  refine .bind (ends_request ⟨_, rfl, clear.completedJob⟩) (.bind (ends_request ⟨_, rfl, clear.packet⟩) ?_)
  exact .bind (ends_require ⟨rfl, rfl⟩) (.bind_error (.ofExcept (.error _)))

theorem Clear.ends_judged
    (decided : (decided service .live image image.resultSha256).Ends (M := machine) oracle pid w
      (.ok (decisionOf service image.scene image.resultSha256 known)) w') :
    (Program.judged service .live image).Ends (M := machine) oracle pid w (.error Program.selfAsserted) { w' with
        decisions := update w'.decisions image.requestId
          (some (decisionOf service image.scene image.resultSha256 known)) } := by
  refine .bind (ends_require clear.inside) (.bind (ends_request ⟨_, rfl, clear.fresh⟩) ?_)
  refine .bind (ends_request ⟨_, rfl, clear.packet⟩) (.bind decided ?_)
  refine .ofExcept_bind (checkDecision_decisionOf image known) ?_
  refine .bind (ends_request ⟨.ok (), clear.written _, rfl⟩) ?_
  rw [verdictOf_decisionOf]
  exact clear.ends_recordVisualQa codes _

end

theorem ends_review (unrecorded : w.verdicts image.requestId = none ∧ w.qa image.requestId = none)
    {outcome : Except Error Unit} (judged : (judged service .live image).Ends (M := machine)
    oracle pid w outcome w') : (review service .live image).Ends (M := machine) oracle pid w outcome w' := by
  refine .bind (.perform rfl) (.bind (.perform rfl) ?_)
  rw [unrecorded.1, unrecorded.2]
  exact judged

theorem Clear.ends_ambiguous (clear : Clear service image assets code oracle)
    (unrecorded : w.verdicts image.requestId = none ∧ w.qa image.requestId = none)
    (unstored : w.decisions image.requestId = none) (intended : (w.intents image.requestId).isSome = true) :
    (Program.review service .live image).Ends (M := machine) oracle pid w (.error Program.ambiguous) w := by
  refine ends_review unrecorded ?_
  refine .bind (ends_require clear.inside) (.bind (ends_request ⟨_, rfl, clear.fresh⟩) ?_)
  refine .bind (ends_request ⟨_, rfl, clear.packet⟩) (.bind_error (.bind (.perform rfl) ?_))
  rw [unstored]
  refine .bind (.perform rfl) ?_
  rw [intended]
  exact .bind_error (.ofExcept (.error _))

end Later

def asksAbout (scene resultSha256 : String) : Event actions → Bool
  | ⟨_, .send request, _⟩ => request.scene = scene && request.resultSha256 = resultSha256
  | _ => false

theorem asks_of_asksAbout (service : Service) {scene resultSha256 : String} {e : Event actions}
    (is : asksAbout scene resultSha256 e = true) : asks service (service.digest scene resultSha256) e = true := by
  obtain ⟨process, action, response⟩ := e
  cases action with
  | send request =>
    simp only [asksAbout, Bool.and_eq_true, decide_eq_true_eq] at is
    obtain ⟨rfl, rfl⟩ := is
    exact decide_eq_true rfl
  | _ => cases is

/-- In every run of a LIVE revision the reviewer is asked at most once about a result, and no verdict is
recorded. A later review whose checks succeed comes to the refused record with the stored decision, or
with a new one if neither intent was written and the ledger has room. -/
theorem asked_at_most_once_and_resumed {service : Service} {c : Config machine Error} (reaches :
    Reaches (reviews service) anyStep (initial start) c) : (∀ scene resultSha256, c.trace.countP (asksAbout
    scene resultSha256) ≤ 1) ∧ (∀ requestId, c.world.verdicts requestId = none ∧ c.world.qa requestId = none) ∧ ∀ image
    assets code oracle pid, Clear service image assets code oracle → (∀ decision, c.world.decisions image.requestId =
    some decision → image.Decided decision → (review service .live image).Ends oracle pid c.world
    (.error selfAsserted) c.world) ∧ (c.world.decisions image.requestId = none → c.world.intents image.requestId
    = none → c.world.exhausted (service.digest image.scene image.resultSha256) service.reviewCount = false →
    ∃ w, (review service .live image).Ends (M := machine) oracle pid c.world (.error selfAsserted)
    w ∧ w.decisions image.requestId = some (decisionOf service image.scene image.resultSha256 code)) := by
  have inv := inv_reached reaches
  refine ⟨fun scene resultSha256 => ?_, inv.unrecorded, fun image assets code oracle pid clear => ⟨?_, ?_⟩⟩
  · exact (countP_mono_left fun e _ => asks_of_asksAbout service).trans (asked_once reaches _)
  · intro decision stored decided
    obtain ⟨known, rfl, codes⟩ := (inv.stored _ _ stored).decisionOf decided
    have found : (Program.decided service .live image image.resultSha256).Ends (M := machine) oracle pid
        c.world (.ok (decisionOf service image.scene image.resultSha256 known)) c.world := by
      refine .bind (.perform rfl) ?_
      rw [stored]
      exact .pure _
    have judged := clear.ends_judged codes found
    rw [← stored, update_eq_self] at judged
    exact ends_review (inv.unrecorded _) judged
  · intro unstored unintended free
    have codes : ∀ known ∈ code, known ∈ failureCodes := by
      obtain ⟨response, -, accepted⟩ := clear.response
      intro known same
      simp only [reviewedCode, Option.bind_eq_bind, Option.bind_eq_some_iff] at accepted
      obtain ⟨_, -, result, -, is⟩ := accepted
      exact verdictResult_known (is.trans (congrArg some same))
    let intended : World := { c.world with
      intents := update c.world.intents image.requestId (some ⟨image.resultSha256, .live⟩) }
    obtain ⟨receipt, asked⟩ : ∃ receipt, (visualQa service image image.resultSha256).Ends (M := machine) oracle
        pid intended (.ok (decisionOf service image.scene image.resultSha256 code))
          (intended.asked service image receipt) := clear.ends_visualQa free
    have found : (Program.decided service .live image image.resultSha256).Ends (M := machine) oracle pid
        c.world (.ok (decisionOf service image.scene image.resultSha256 code))
        (intended.asked service image receipt) := by
      refine .bind (.perform rfl) ?_
      rw [unstored]
      refine .bind (.perform rfl) ?_
      rw [unintended]
      refine .bind (ends_require nofun) ?_
      exact .bind (ends_request ⟨.ok (), clear.written _, rfl⟩) asked
    exact ⟨_, ends_review (inv.unrecorded _) (clear.ends_judged codes found), update_self ..⟩

/-! ## Samples -/

def sampleImage : Image where
  requestId := "EP000001:image:S001"
  scene := "S001"
  result := "executor/S001.png"
  resultSha256 := "dda18a0e21ae47c53b4309434cbc02ae8bf764fa83a6defbb719431242722aa7"
  inside := true

def sampleAnswer : String :=
  "\x7b\"scene_id\": \"S001\", \"result_sha256\": \"" ++ sampleImage.resultSha256 ++
    "\", \"verdict\": \"PASS\", \"reason\": \"clear\"\x7d"

def sampleService : Service where
  reviewCount := 12
  reviewCap := 1 / 10
  capText := "0.1"
  model := "vision"
  authority := "studio"
  amount
    | .num value => if 0 ≤ value then some value else none
    | _ => none
  strictJson content :=
    if content = .str sampleAnswer then
      some (.obj [("scene_id", .str "S001"), ("result_sha256", .str sampleImage.resultSha256),
        ("verdict", .str "PASS"), ("reason", .str "clear")])
    else none
  digest scene resultSha256 :=
    if scene = "S001" ∧ resultSha256 = sampleImage.resultSha256 then
      "4a15540901077770950fcf43eaf8aff347fd483e431b9ffcfe4497b1e307d0fa"
    else ""

def sampleResponse : Json :=
  .obj [("model", .str "vision"),
    ("choices", .arr [.obj [("finish_reason", .str "stop"), ("message", .obj [("content", .str sampleAnswer)])]]),
    ("usage", .obj [("cost", .num (1 / 100))])]

def sampleOracle : Oracle where
  failure := none
  fresh := .ok ()
  packet := fun _ => .ok ⟨sampleImage.resultSha256, true⟩
  preflight := .ok ()
  sameReferences := true
  candidate := fun _ => .ok (true, sampleImage.resultSha256)
  manifest := .ok []
  picture := fun _ => .ok ⟨1000, .ok "image/png", 1000, sampleImage.resultSha256⟩
  secret := .ok ()
  response := some sampleResponse
  completedJob := .ok ()
  commit := .ok ()
  promote := .ok ()

theorem sampleOracle_clear : Clear sampleService sampleImage [] none sampleOracle where
  inside := rfl
  failure := rfl
  fresh := rfl
  packet := rfl
  preflight := rfl
  references := rfl
  candidate := rfl
  manifest := rfl
  pictures := by
    intro entry member
    obtain rfl := mem_singleton.mp member
    exact ⟨_, _, rfl, rfl, by decide, by decide, rfl⟩
  secret := rfl
  response := ⟨sampleResponse, rfl, by decide +kernel⟩
  completedJob := rfl

def oneReview (oracles : List Oracle) : List (Move machine Error) :=
  .spawn (review sampleService .live sampleImage) :: oracles.map (.perform 0)

theorem oneReview_calls (oracles : List Oracle) : ∀ m ∈ oneReview oracles, m.calls ⊆ reviews sampleService := by
  intro m member
  rcases mem_cons.mp member with rfl | performed
  · rintro _ rfl
    exact ⟨sampleImage, rfl⟩
  · obtain ⟨oracle, -, rfl⟩ := mem_map.mp performed
    exact Set.empty_subset _

theorem sample_asked_and_resumed :
    ∃ c : Config machine Error, Reaches (reviews sampleService) anyStep (initial start) c ∧
      c.trace.countP (asksAbout "S001" sampleImage.resultSha256) = 1 ∧
      (review sampleService .live sampleImage).Ends sampleOracle 1 c.world
        (.error selfAsserted) c.world := by
  have passed : (simulate (fun _ _ => true) (initial start)
      (oneReview (replicate 19 sampleOracle))).any (fun c =>
        decide (0 < c.trace.countP (asksAbout "S001" sampleImage.resultSha256)) &&
        decide (c.world.decisions sampleImage.requestId =
          some (decisionOf sampleService "S001" sampleImage.resultSha256 none))) = true := by
    decide +kernel
  obtain ⟨c, reached, holds⟩ := exists_reaches (fun _ _ _ => trivial) (oneReview_calls _) passed
  simp only [Bool.and_eq_true, decide_eq_true_eq] at holds
  obtain ⟨once, -, later⟩ := asked_at_most_once_and_resumed reached
  refine ⟨c, reached, le_antisymm (once _ _) holds.1, ?_⟩
  exact (later sampleImage [] none sampleOracle 1 sampleOracle_clear).1 _ holds.2 ⟨rfl, rfl⟩

/-- The budget was refused after the intent of the harness was written. Nothing was sent, and every later
review of the image is refused although all its checks succeed. -/
theorem never_asked_and_refused :
    ∃ c : Config machine Error, Reaches (reviews sampleService) anyStep (initial start) c ∧
      c.trace.countP (asksAbout "S001" sampleImage.resultSha256) = 0 ∧ c.world.ledger = [] ∧
      Clear sampleService sampleImage [] none sampleOracle ∧
      (review sampleService .live sampleImage).Ends sampleOracle 1 c.world
        (.error ambiguous) c.world := by
  have passed : (simulate (fun _ _ => true) (initial start)
      (oneReview (replicate 8 { sampleOracle with preflight := .error (.value "budget") }))).any
      (fun c => decide (c.trace.countP (asksAbout "S001" sampleImage.resultSha256) = 0) &&
        decide (c.world.ledger = []) && (c.world.decisions sampleImage.requestId).isNone &&
        (c.world.intents sampleImage.requestId).isSome) = true := by
    decide
  obtain ⟨c, reached, holds⟩ := exists_reaches (fun _ _ _ => trivial) (oneReview_calls _) passed
  simp only [Bool.and_eq_true, decide_eq_true_eq, Option.isNone_iff_eq_none] at holds
  obtain ⟨⟨⟨unsent, empty⟩, unstored⟩, intended⟩ := holds
  exact ⟨c, reached, unsent, empty, sampleOracle_clear,
    sampleOracle_clear.ends_ambiguous ((inv_reached reached).unrecorded _) unstored intended⟩

end VideoPoster.RevisionLive.Review
