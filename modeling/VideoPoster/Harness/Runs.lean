import VideoPoster.Harness.RunWalk

/-!
# Runs
-/

namespace VideoPoster.Harness
open Python Billing Interleaving Tables List

structure Step where
  call : Call
  before : World
  after : World
  pending : Option Act

def Call.Rejects : Call → Prop
  | reject _ _ _ => True
  | _ => False

section Run
variable (L : Libraries)

inductive Run (w₀ : World) : List Step → World → Prop
  | start : Run w₀ [] w₀
  | call {w w' : World} {steps : List Step} {call : Call} {oracle : Oracle} {pid : ℕ} {pending : Option Act}
      (run : Run w₀ steps w)
      (stops : Prog.Stops (M := machine L) oracle pid (call.program L) w w' pending) :
      Run w₀ (steps ++ [⟨call, w, w', pending⟩]) w'

end Run

variable {L : Libraries} {w₀ w w' : World} {steps : List Step}

/-- A call with the answers from outside, and after how many actions it dies if it has not ended. -/
structure Turn where
  call : Call
  oracle : Oracle
  actions : ℕ := 1000

def play (L : Libraries) (w : World) : List Turn → Option (List Step)
  | [] => some []
  | turn :: rest =>
    match Prog.stopAfter (M := machine L) turn.oracle 0 turn.actions (turn.call.program L) w with
    | some (w', pending) => (play L w' rest).map (⟨turn.call, w, w', pending⟩ :: ·)
    | none => none

def lastWorld (w : World) (steps : List Step) : World := (steps.getLast?.map Step.after).getD w

theorem Run.played {turns : List Turn} {later : List Step} (run : Run L w₀ steps w)
    (plays : play L w turns = some later) : Run L w₀ (steps ++ later) (lastWorld w later) := by
  induction turns generalizing w steps later with
  | nil =>
    cases plays
    rw [append_nil]
    exact run
  | cons turn rest ih =>
    simp only [play] at plays
    cases stopped : Prog.stopAfter (M := machine L) turn.oracle 0 turn.actions (turn.call.program L) w with
    | none => simp [stopped] at plays
    | some done =>
      obtain ⟨w', pending⟩ := done
      simp only [stopped, Option.map_eq_some_iff] at plays
      obtain ⟨others, played, rfl⟩ := plays
      have longer := ih (run.call (.of_stopAfter stopped)) played
      have last : lastWorld w (⟨turn.call, w, w', pending⟩ :: others) = lastWorld w' others := by
        cases others with
        | nil => rfl
        | cons step more => simp [lastWorld, getLast?_eq_some_getLast]
      rw [last, ← singleton_append, ← append_assoc]
      exact longer

theorem Run.of_play {turns : List Turn} {check : List Step → Bool} (plays : (play L w₀ turns).any check = true) :
    ∃ steps, Run L w₀ steps (lastWorld w₀ steps) ∧ check steps = true := by
  rw [Option.any_eq_true] at plays
  obtain ⟨steps, played, checked⟩ := plays
  exact ⟨steps, nil_append steps ▸ Run.start.played played, checked⟩

theorem Run.world_eq (run : Run L w₀ steps w) : w = lastWorld w₀ steps := by
  cases run with
  | start => rfl
  | call run stops => simp [lastWorld]

theorem Run.dropLast {step : Step} (run : Run L w₀ (steps ++ [step]) w) : Run L w₀ steps (lastWorld w₀ steps) := by
  generalize whole : steps ++ [step] = all at run
  cases run with
  | start => simp at whole
  | call run stops =>
    obtain ⟨rfl, -⟩ := append_inj' whole rfl
    exact run.world_eq ▸ run

def hexLetter (c : Char) : Bool := c.isDigit || ('a' ≤ c && c ≤ 'f')

def sampleLetter : Document → Char
  | .bytes data => (data.toList.find? hexLetter).getD 'a'
  | .package package => if package.uploadPerformed then 'd' else 'c'
  | _ => 'e'

def sampleHash (letter : Char) : Hash := .ofList (replicate 64 letter)

theorem sampleLetter_hex (document : Document) : hexLetter (sampleLetter document) = true := by
  cases document with
  | bytes data =>
    simp only [sampleLetter]
    cases found : data.toList.find? hexLetter with
    | none => decide
    | some c => exact find?_some found
  | package package =>
    simp only [sampleLetter]
    split_ifs <;> decide
  | _ => rfl

def sampleBits (document : Document) : BitVec 64 :=
  if sampleLetter document = 'a' then 0 else .allOnes 64

def sampleLibraries : Libraries where
  sha256 := fun document => sampleHash (sampleLetter document)
  sha256_hex := by
    intro document
    have hex := sampleLetter_hex document
    simp only [hexLetter] at hex
    simp [hash64, sampleHash, hex]
  planDigest := fun _ => "plan"
  packageDigest := fun body => if body.uploadPerformed then "uploaded" else "frozen"
  fingerprint := fun document => .ok (sampleBits document)
  samples := fun document => .ok [sampleBits document, sampleBits document, sampleBits document]
  compile := fun _ _ => .ok (.bytes "a")
  implementation := fun _ => []

def sampleSheet (revision : ℕ) (letter : Char) : Bound :=
  (.revision revision ["EP8", "compiled", "contact_sheet.png"], sampleHash letter)

def sampleFile (revision : ℕ) (letter : Char) (parts : List String) : Document :=
  if parts = ["compiled", "manifest.json"] then .manifest ⟨[sampleSheet revision letter], sampleSheet revision letter⟩
  else if parts = ["compiled", "contact_sheet.binding.json"] then
    .binding ⟨[sampleHash letter], sampleHash letter⟩
  else .bytes (.singleton letter)

def sampleOracle (revision : ℕ) (letter : Char) (now : String) : Oracle where
  answer
    | .now => now
    | .predecessors _ => .ok []
    | .brief _ => .ok none
    | .prepare _ => .ok ⟨none, [], [], []⟩
    | .dependencies => .ok ()
    | .references => .ok []
    | .made _ parts => .ok (sampleFile revision letter parts)
    | .names stage _ =>
      if stage = .images then [["contact_sheet.png"], ["contact_sheet.binding.json"], ["manifest.json"]] else []
    | .provided _ => []
    | .finished _ => .ok ()
    | .heroManifests => [.bytes "b"]
    | .durable => true
    | .publicationProvider => .ok ()
    | .readback videoId => .ok ⟨some videoId, "readback"⟩
  sent := fun _ => .ok 1
  uploaded := .ok ⟨true, some "video", some "url", ""⟩

def sampleRequest (heroes : Bool) : PlanRequest := ⟨.test, "EP8", none, 3, 2, 1, "TEST", heroes⟩

def emptyWorld : World := ⟨none, .empty, [], 0, []⟩

def sampleTurn (now : String) (call : Call) : Turn := ⟨call, sampleOracle 1 'a' now, 1000⟩

def sampleProduction (heroes : Bool) : List Turn :=
  [.createPlan (sampleRequest heroes), .approvePlan "plan" "reviewer", .run,
    .approve .visualFreeze (sampleHash 'a') "reviewer", .run, .approve .thumbnail (sampleHash 'a') "reviewer", .run,
    .approve .video (sampleHash 'a') "reviewer"].map (sampleTurn "noon")

end VideoPoster.Harness
