import Mathlib.Data.Nat.Pairing
import Mathlib.Logic.Equiv.Nat
import VideoPoster.Interleaving.Interruption
import VideoPoster.Hero.Calls

/-!
# A completed hero job is paid for and delivered
-/

namespace VideoPoster.Hero
open Python Interleaving Program List Config Nat

variable {P : Provider} {pid : ℕ} {α : Type}

def Recorded (status : Status) (c : Config machine Error) : Prop :=
  ∃ file, c.world.checkpoint = some file ∧ file.status = status

def Failed (P : Provider) (c c' : Config machine Error) : Prop :=
  Recorded .failed c' ∧ ∃ pid new, c'.trace = ⟨pid, .save new, .ok ()⟩ :: c.trace ∧ Refuted P pid c.trace

variable {c c' : Config machine Error}

theorem sound_of_reaches {output : Output} (reaches : Reaches (calls P)
    (careful P) (initial ⟨none, output, none⟩) c) : (discipline P).Sound (c.under (careful P)) :=
  Protocol.Sound.reaches admits (.initial .initial) reaches.restrict

theorem step_recorded (sound : (discipline P).Sound (c.under (careful P))) (step : Step (calls P) (careful P) c c') :
    (Recorded .completed c → Recorded .completed c' ∨ Failed P c c') ∧
    (Recorded .failed c → Recorded .completed c' ∨ Recorded .failed c') := by
  have still (same : c'.world.checkpoint = c.world.checkpoint) :
      (Recorded .completed c → Recorded .completed c' ∨ Failed P c c') ∧
      (Recorded .failed c → Recorded .completed c' ∨ Recorded .failed c') := by
    refine ⟨?_, ?_⟩
    · rintro ⟨file, found, is⟩
      exact .inl ⟨file, same.trans found, is⟩
    · rintro ⟨file, found, is⟩
      exact .inr ⟨file, same.trans found, is⟩
  cases step with
  | spawn => exact still rfl
  | crash => exact still rfl
  | @perform s' pid action response next alive performs meets =>
    have granted : grants P pid (c.toShared.under (careful P)) action := sound.granted alive
    obtain ⟨oracle, executed, extended⟩ := performs
    have done : Done pid action response (c.toShared.under (careful P)) (s'.under (careful P)) :=
      done_of_performs (performs_restrict.mpr ⟨oracle, executed, meets, extended⟩)
    rcases done.checkpoint with ⟨new, rfl, same⟩ | ⟨new, -, -, absent, -⟩ | ⟨-, same⟩
    · obtain ⟨old, was, replaces⟩ := granted
      have now : s'.world.checkpoint = some new := congrArg World.checkpoint same
      refine ⟨?_, ?_⟩
      · rintro ⟨file, found, is⟩
        cases was.symm.trans found
        rcases replaces.final (.inl is) with completed | ⟨failed, before | refuted⟩
        · exact .inl ⟨new, now, completed⟩
        · exact nomatch is.symm.trans before
        · rcases done.effect with ⟨rfl, -⟩ | ⟨-, unchanged⟩
          · exact .inr ⟨⟨new, now, failed⟩, pid, new, extended, refuted⟩
          · exact .inl ⟨old, (congrArg World.checkpoint unchanged).trans found, is⟩
      · rintro ⟨file, found, is⟩
        cases was.symm.trans found
        rcases replaces.final (.inr is) with completed | ⟨failed, -⟩
        · exact .inl ⟨new, now, completed⟩
        · exact .inr ⟨new, now, failed⟩
    · refine ⟨?_, ?_⟩ <;> rintro ⟨file, found, -⟩ <;> exact nomatch absent.symm.trans found
    · exact still same

theorem reaches_recorded {output : Output}
    (before : Reaches (calls P) (careful P) (initial ⟨none, output, none⟩) c) (completed : Recorded .completed c)
    (reaches : Reaches (calls P) (careful P) c c') : Recorded .completed c' ∨ Recorded .failed c' := by
  induction reaches with
  | refl => exact .inl completed
  | tail between last ih =>
    obtain ⟨kept, failed⟩ := step_recorded (sound_of_reaches (before.trans between)) last
    rcases ih with completed | is
    · exact (kept completed).imp_right And.left
    · exact failed is

section Recovery
variable {oracle : Oracle} {w w' : World} {outcome : Result α} {job : Job} {file : Checkpoint} {rounds : ℕ}
  {response : Json} {url expected : String}

section
variable (turn : w.turn = some pid)
include turn

theorem ends_load {reader : Reader} {next : Option Checkpoint → Program α}
    (rest : (next w.checkpoint).Ends (M := machine) oracle pid w outcome w') :
    ((perform (.load reader)).bind next).Ends (M := machine) oracle pid w outcome w' :=
  .act (if_pos turn) rest

theorem ends_time {next : ℚ → Program α} (rest : (next oracle.time).Ends (M := machine)
    oracle pid w outcome w') : ((perform .time).bind next).Ends (M := machine) oracle pid w outcome w' :=
  .act (if_pos turn) rest

theorem ends_look {sha256 : String} {next : Output → Program α} (rest : (next w.output).Ends (M := machine)
    oracle pid w outcome w') : ((perform (.look sha256)).bind next).Ends (M := machine) oracle pid w outcome w' :=
  .act (if_pos turn) rest

theorem ends_save {new : Checkpoint} {next : Unit → Program α}
    (writes : oracle.failure = none) (rest : (next ()).Ends (M := machine) oracle pid { w with checkpoint := some new }
    outcome w') : ((save new).bind next).Ends (M := machine) oracle pid w outcome w' := by
  have executed : exec oracle pid w (.save new) = some ({ w with checkpoint := some new }, .ok ()) := by
    simp only [exec, if_pos turn, writes, written]
  exact .act executed rest

end

theorem ends_require {condition : Prop} [Decidable condition] {error : Error}
    {next : Unit → Program α} (met : condition) (rest : (next ()).Ends (M := machine) oracle pid w outcome w') :
    ((ofResult (require condition error)).bind next).Ends (M := machine) oracle pid w outcome w' := by
  have passes : require condition error = .ok () := require_eq_ok.mpr met
  exact .ofExcept_bind passes rest

theorem ends_awaiting {action : Act} {answer : action.Res} {next : action.Res → Program α} (turn : w.turn = some pid)
    (answers : exec oracle pid { w with turn := none } action = some (w, answer)) (rest : (next answer).Ends (M :=
    machine) oracle pid w outcome w') : ((awaiting action).bind next).Ends (M := machine) oracle pid w outcome w' := by
  have executed : exec oracle pid w .suspend = some ({ w with turn := none }, ()) := if_pos turn
  exact .act executed (.act answers rest)

structure Succeeds (P : Provider) (w : World) (job : Job) (id : String) (oracle : Oracle) (response : Json)
    (url expected : String) (cost : Decimal) : Prop where
  validated : job.validated = .ok ()
  writes : oracle.failure = none
  status : oracle.status = .ok response
  completed : parseStatus response id = .ok .completed
  declared : declared P response = .ok (url, expected)
  free : w.output = .absent ∨ w.output = .regular expected
  downloaded : oracle.downloaded = .ok (some expected)
  cost : actualCost P job response = .ok cost

variable {id : String} {cost : Decimal}

theorem ends_materialize (turn : w.turn = some pid) (writes : oracle.failure = none)
    (downloaded : oracle.downloaded = .ok (some expected)) (absent : w.output = .absent) :
    (materialize url expected).Ends (M := machine) oracle pid w (.ok ()) { w with output := .regular expected } := by
  have answers : exec oracle pid { w with turn := none } (.download url expected) = some (w, .ok (some expected)) := by
    simp only [exec, if_true, downloaded, ← turn]
  refine ends_awaiting turn answers ?_
  refine ends_require rfl ?_
  have linked : exec oracle pid w (.link expected) = some ({ w with output := .regular expected }, .ok true) := by
    simp only [exec, if_pos turn, writes, absent]
  exact .act linked (.pure ())

section
variable (succeeds : Succeeds P w job id oracle response url expected cost)
include succeeds

theorem ends_complete (turn : w.turn = some pid) : ∃ w', (complete P job file response).Ends (M := machine)
    oracle pid w (.ok ⟨P.target, expected, cost⟩) w' ∧ w'.output = .regular expected := by
  have finishes (w : World) (turn : w.turn = some pid) (placed : w.output = .regular expected) : ∃ w',
      ((ofResult (actualCost P job response)).bind fun cost => (save { file with
        status := .completed, resultPath := P.target, resultSha256 := expected, actualCost := P.text cost }).bind fun _ =>
          .pure (⟨P.target, expected, cost⟩ : Delivered)).Ends (M := machine) oracle pid w
          (.ok ⟨P.target, expected, cost⟩) w' ∧ w'.output = .regular expected :=
    ⟨_, .ofExcept_bind succeeds.cost (ends_save turn succeeds.writes (.pure _)), placed⟩
  rcases succeeds.free with absent | placed
  · obtain ⟨w', ends, placed⟩ := finishes { w with output := .regular expected } turn rfl
    refine ⟨w', .ofExcept_bind succeeds.declared (ends_look turn ?_), placed⟩
    refine .ofExcept_bind (congrArg safeFinalOutput absent) ?_
    exact .bind (ends_materialize turn succeeds.writes succeeds.downloaded absent) ends
  · obtain ⟨w', ends, still⟩ := finishes w turn placed
    refine ⟨w', .ofExcept_bind succeeds.declared (ends_look turn ?_), still⟩
    refine .ofExcept_bind (congrArg safeFinalOutput placed) ?_
    exact ends_require rfl ends

theorem ends_drive (turn : w.turn = some pid) (found : w.checkpoint = some file) (completed : file.status = .completed)
    {delay : ℚ} {state : Checkpoint} : ∃ w', (drive P job (rounds + 1) state response delay).Ends (M := machine)
    oracle pid w (.ok ⟨P.target, expected, cost⟩) w' ∧ w'.output = .regular expected := by
  obtain ⟨w', ends, placed⟩ := @ends_complete P pid oracle w job file response url expected id cost succeeds turn
  refine ⟨w', ends_load turn ?_, placed⟩
  simp only [found, Option.getD_some, completed]
  have whole : (completeOrFail P job file response).Ends (M := machine) oracle pid w (.ok ⟨P.target, expected, cost⟩) w' :=
    .bind ends.attempt (.pure _)
  exact .bind whole.attempt (.pure _)

end

theorem ends_persisted (turn : w.turn = some pid) (stored : Stored P w.output file) :
    ∃ cost, (persistedResult P file).Ends (M := machine) oracle pid w (.ok ⟨P.target, file.resultSha256, cost⟩) w := by
  obtain ⟨cost, written, finite, nonnegative⟩ := stored.cost
  refine ⟨cost, ends_require stored.valid (ends_look turn ?_)⟩
  refine ends_require ⟨stored.path, stored.output⟩ (.ofExcept_bind ?_ (.pure _))
  rw [written, P.decimal_text cost finite]
  exact bind_eq_ok.mpr ⟨cost, rfl, bind_eq_ok.mpr ⟨(), require_eq_ok.mpr ⟨finite, nonnegative⟩, rfl⟩⟩

theorem ends_recover (turn : w.turn = some pid) (found : w.checkpoint = some file) (sane : Sane P w.output file)
    (completed : file.status = .completed)
    (succeeds : Succeeds P w job file.providerId oracle response url expected cost) : ∃ delivered w',
    (recover P (rounds + 1) job file.providerId "").Ends (M := machine) oracle pid w (.ok delivered) w' ∧
      delivered.path = P.target ∧ w'.output = .regular delivered.sha256 ∧
      delivered.sha256 = if file.resultPath = "" then expected else file.resultSha256 := by
  have known : file.providerId ≠ "" := by
    intro absent
    exact nomatch (sane.started absent).symm.trans completed
  have unclaimed : ¬ file.cancelClaimed = true := fun is => sane.claimed is (.inl completed)
  suffices ∃ delivered w', (recoverState P (rounds + 1) job file.providerId file).Ends (M := machine) oracle pid w
      (.ok delivered) w' ∧ delivered.path = P.target ∧ w'.output = .regular delivered.sha256 ∧
      delivered.sha256 = if file.resultPath = "" then expected else file.resultSha256 by
    obtain ⟨delivered, w', ends, rest⟩ := this
    refine ⟨delivered, w', ?_, rest⟩
    refine .ofExcept_bind succeeds.validated (ends_require (sane.named.resolve_left known) ?_)
    refine ends_require rfl (ends_load turn ?_)
    rw [found]
    refine ends_require rfl ?_
    rw [if_neg (fun claimed => unclaimed claimed.1)]
    exact ends
  unfold recoverState
  by_cases has : file.resultPath = ""
  · rw [if_neg (fun recorded => recorded.2 has), if_pos has]
    simp only [completed]
    obtain ⟨w', ends, placed⟩ := @ends_drive P pid oracle { w with checkpoint := some (recorded file .completed) } job
      (recorded file .completed) rounds response url expected file.providerId cost
      ⟨succeeds.validated, succeeds.writes, succeeds.status, succeeds.completed, succeeds.declared, succeeds.free,
        succeeds.downloaded, succeeds.cost⟩ turn rfl rfl P.policy.initialDelay (recorded file .completed)
    refine ⟨⟨P.target, expected, cost⟩, w', ends_time turn ?_, rfl, placed, rfl⟩
    rw [if_neg (fun late => late.1 trivial)]
    have answers : exec oracle pid { w with turn := none } (.status file.providerId) = some (w, .ok response) := by
      simp only [exec, if_true, succeeds.status, ← turn]
    refine ends_time turn (ends_awaiting turn answers (ends_load turn ?_))
    simp only [found, if_neg unclaimed]
    refine ends_time turn ?_
    rw [if_neg (fun late => late.1 (by decide))]
    refine .ofExcept_bind succeeds.completed (ends_save turn succeeds.writes ends)
  · rw [if_pos ⟨completed, has⟩, if_neg has]
    have stored := sane.result has
    obtain ⟨cost, ends⟩ := @ends_persisted P pid oracle w file turn stored
    exact ⟨_, w, ends, rfl, stored.output, rfl⟩

end Recovery

def sampleText : Decimal → String
  | .finite negative coefficient exponent =>
    (pair (pair negative.toNat coefficient) (Equiv.intEquivNat exponent)).repr
  | _ => ""

def sampleDecimal : Json → Result Decimal
  | .str text =>
    let n := ofDigitChars 10 text.toList 0
    .ok (.finite (n.unpair.1.unpair.1 == 1) n.unpair.1.unpair.2 (Equiv.intEquivNat.symm n.unpair.2))
  | _ => .error ⟨.other "InvalidOperation", ""⟩

theorem sampleDecimal_text (d : Decimal)
    (finite : d.isFinite = true) : sampleDecimal (.str (sampleText d)) = .ok d := by
  cases d with
  | finite negative coefficient exponent =>
    simp only [sampleText, sampleDecimal, Nat.repr, String.toList_ofList, Nat.ofDigitChars_ten_toDigits, Nat.unpair_pair,
      Equiv.symm_apply_apply]
    cases negative <;> rfl
  | infinite negative => cases finite
  | nan => cases finite

def sampleProvider : Provider where
  policy := ⟨1, 2, 15, 900⟩
  resultHosts := ["video.runpod.ai"]
  target := "/output/hero.mp4"
  target_ne := by decide
  strip text := text
  urlsplit _ := .ok ⟨"https", some "video.runpod.ai", none, none, .ok none, "/hero.mp4", "", ""⟩
  decimal := sampleDecimal
  text := sampleText
  decimal_text := sampleDecimal_text

def sampleJob : Job := ⟨.finite false 0 0, rfl, by decide, .ok ()⟩

def sampleSha : String := "".pushn '0' 64

def sampleResponse : Json := .obj [("id", .str "job-1"), ("status", .str "COMPLETED"),
  ("output", .obj [("url", .str "https://video.runpod.ai/hero.mp4"), ("sha256", .str sampleSha)])]

def sampleOracle : Oracle where
  failure := none
  time := 0
  remembered := .ok ()
  submitted := .ok sampleResponse
  status := .ok sampleResponse
  cancelled := .ok ()
  downloaded := .ok (some sampleSha)
  slept := .ok ()

def cancellingOracle : Oracle := { sampleOracle with downloaded := .error ⟨cancelled, ""⟩ }

def records (status : Status) (c : Config machine Error) : Bool :=
  decide (c.world.checkpoint.map Checkpoint.status = some status)

theorem recorded_of_records {status : Status} (is : records status c = true) : Recorded status c :=
  Option.map_eq_some_iff.mp (of_decide_eq_true is)

def sampleStart : Config machine Error := initial ⟨none, .absent, none⟩

def sampleRun : List (Move machine Error) :=
  .spawn (task (submit sampleProvider 1 sampleJob)) :: replicate 8 (.perform 0 sampleOracle)

theorem sampleRun_calls : ∀ m ∈ sampleRun, m.calls ⊆ calls sampleProvider := by
  refine forall_mem_cons.mpr ⟨?_, fun m member => ?_⟩
  · rintro _ rfl
    exact .inl (.inl (.inr ⟨(1, sampleJob), rfl⟩))
  · obtain rfl := eq_of_mem_replicate member
    exact Set.empty_subset _

def succeeded {α : Type} : Result α → Bool
  | .ok _ => true
  | .error _ => false

def sampleCareful (_ : World) : Event actions → Bool
  | ⟨_, .load .cancelOnce, _⟩ => false
  | ⟨_, .submit, answer⟩ => decide (answer = .ok sampleResponse)
  | ⟨_, .status _, _⟩ => false
  | ⟨_, .look expected, found⟩ => decide (found = .absent ∨ found = .regular expected)
  | ⟨_, .download _ _, answer⟩ => succeeded answer
  | ⟨_, .link _, answer⟩ => succeeded answer
  | ⟨_, .save _, answer⟩ => succeeded answer
  | _ => true

theorem careful_of_sample (w : World)
    (e : Event actions) (is : sampleCareful w e = true) : careful sampleProvider w e := by
  have fine {α : Type} {answer : Result α} (ok : succeeded answer = true) : NoValueError answer := by
    rintro error rfl
    cases ok
  obtain ⟨pid, action, response⟩ := e
  cases action with
  | load reader =>
    cases reader with
    | cancelOnce => cases is
    | other => trivial
  | submit =>
    intro value same
    have answered : response = .ok sampleResponse := of_decide_eq_true is
    cases answered.symm.trans same
    -- the response names no cost
    intro id _ job error failed
    have paid : actualCost sampleProvider job sampleResponse = .ok job.cost :=
      bind_eq_ok.mpr ⟨(), require_eq_ok.mpr ⟨job.finite, job.nonnegative⟩, rfl⟩
    exact nomatch paid.symm.trans failed
  | status providerId => cases is
  | look expected =>
    have found : response = .absent ∨ response = .regular expected := of_decide_eq_true is
    exact found
  | download url expected => exact fine is
  | link sha256 => exact fine is
  | save new => exact fine is
  | begin => trivial
  | suspend => trivial
  | claim new => trivial
  | time => trivial
  | remember providerId => trivial
  | cancel providerId => trivial
  | sleep seconds => trivial

end VideoPoster.Hero
