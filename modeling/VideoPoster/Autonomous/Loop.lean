import VideoPoster.Autonomous.Runner

/-!
# The loop of a resume and its tasks
-/

namespace VideoPoster.Autonomous
open Python Runner List Nat Option

inductive Stage where
  | ready | running | ran | judging
  | finished (outcome : Result (String × Option (Option QaAnswer)))

namespace Stage

def isFinished : Stage → Bool
  | .finished _ => true
  | _ => false

/-- The steps of a task. A completed row without a provider id takes no provider slot; an exception, also
of a cancellation, ends the task anywhere. -/
def next : Stage → Stage → Bool
  | .ready, .running => true
  | .ready, .ran => true
  | .running, .ran => true
  | .ran, .judging => true
  | .ran, .finished _ => true
  | .judging, .finished _ => true
  | .ready, .finished (.error _) => true
  | .running, .finished (.error _) => true
  | _, _ => false

end Stage

structure Graph where
  ordered : List String
  edges : String → List String
  limits : Scheduler

def Graph.window (G : Graph) : ℕ := G.limits.providerConcurrency + G.limits.cpuConcurrency

inductive Decision where
  | returned (document : Document)
  | rejected (document : Document) (error : Error)
  | raised (error : Error)
  | dispatched (ids : List String)

namespace Graph
variable (G : Graph)

def pending (document : Document) (inflight : List String) : List String :=
  G.ordered.filter fun id => (qaOf document id).isNone ∧ id ∉ inflight

def activeRejected (document : Document) : Bool :=
  (active document).any fun id => approvedIn document id = some false

def blocked (document : Document) (inflight : List String) : Bool :=
  (G.pending document inflight).any fun id => (G.edges id).any fun dep => approvedIn document dep = some false

def ready (document : Document) (inflight : List String) : List String :=
  (G.pending document inflight).filter fun id =>
    (G.edges id).all fun dep => approvedIn document dep = some true

def decision (document : Document) (inflight : List String) (inspect : String → Result (Option Receipt)) :
    Decision :=
  match validateQa inspect document.qa with
  | .error error =>
    if error.kind = .valueError then .rejected { document with state := .rejected } error
    else .raised error
  | .ok () =>
    if activeRejected document then .returned { document with state := .rejected }
    else if G.pending document inflight = [] ∧ inflight = [] then
      if (active document).all fun id => approvedIn document id = some true then
        .returned { document with state := .mediaPending }
      else .raised (.runtime "active jobs have no reusable QA verdict")
    else if G.blocked document inflight then .returned { document with state := .rejected }
    else
      let ids := (G.ready document inflight).take (G.window - inflight.length)
      if inflight ++ ids = [] then .raised (.runtime "unfinished jobs have unresolved dependency QA")
      else .dispatched ids

end Graph

inductive Phase where
  | deciding | waiting
  | failing (error : Error)
  | ended (result : Result Unit)

def Phase.isEnded : Phase → Bool
  | .ended _ => true
  | _ => false

/-- A resume in its loop: the saved document, the tasks that it has not taken out, and where it is. -/
structure Loop where
  document : Document
  tasks : List (String × Stage)
  phase : Phase

namespace Loop
variable (G : Graph) (s : Loop)

def inflight : List String := s.tasks.map Prod.fst

def running : ℕ := s.tasks.countP fun task => task.2 matches .running

def judging : ℕ := s.tasks.countP fun task => task.2 matches .judging

def start (document : Document) : Loop := ⟨document, [], .deciding⟩

structure Settling where
  requestId : String
  recorded : Option Error
  saves : Bool

def done? (settling : Settling) : Option Done :=
  match s.tasks.lookup settling.requestId with
  | some (.finished outcome) => some ⟨settling.requestId, outcome, settling.recorded, settling.saves⟩
  | _ => none

inductive Move where
  | decide (inspect : String → Result (Option Receipt)) (saves : Bool)
  | advance (index : ℕ) (stage : Stage)
  | settle (done : List Settling)
  | gathered

def slotFree : Stage → Bool
  | .running => s.running < G.limits.providerConcurrency
  | .judging => s.judging < G.limits.cpuConcurrency
  | _ => true

def decided (saves : Bool) : Decision → Loop
  | .returned document =>
    if saves then { s with document := document, phase := .ended (.ok ()) }
    else { s with phase := .failing interrupted }
  | .rejected document error =>
    if saves then { s with document := document, phase := .failing error }
    else { s with phase := .failing interrupted }
  | .raised error => { s with phase := .failing error }
  | .dispatched ids => { s with tasks := s.tasks ++ ids.map fun id => (id, .ready), phase := .waiting }

def settled (done : List Done) : Loop :=
  match Runner.settle s.document s.inflight done with
  | (document, inflight, stop) =>
    { document := document
      tasks := s.tasks.filter fun task => task.1 ∈ inflight
      phase := stop.elim .deciding .failing }

def step : Move → Option Loop
  | .decide inspect saves =>
    match s.phase with
    | .deciding => some (s.decided saves (G.decision s.document s.inflight inspect))
    | _ => none
  | .advance index stage =>
    match s.tasks[index]? with
    | some task =>
      if task.2.next stage ∧ s.slotFree G stage then
        some { s with tasks := s.tasks.set index (task.1, stage) }
      else none
    | none => none
  | .settle settlings =>
    match s.phase, settlings.mapM s.done? with
    | .waiting, some done =>
      if settlings ≠ [] ∧ (settlings.map Settling.requestId).Nodup then some (s.settled done) else none
    | _, _ => none
  | .gathered =>
    match s.phase with
    | .failing error =>
      if s.tasks.all fun task => task.2.isFinished then some { s with phase := .ended (.error error) }
      else none
    | _ => none

inductive Reaches (allowed : Loop → Prop) (document : Document) : Loop → Prop
  | start : Reaches allowed document (start document)
  | step {s s' : Loop} {move : Move} (reaches : Reaches allowed document s) (may : allowed s)
      (stepped : s.step G move = some s') : Reaches allowed document s'

end Loop

variable {G : Graph} {s s' : Loop} {document : Document} {allowed : Loop → Prop}

structure Loop.Bounded (G : Graph) (s : Loop) : Prop where
  tasks : s.tasks.length ≤ G.window
  running : s.running ≤ G.limits.providerConcurrency
  judging : s.judging ≤ G.limits.cpuConcurrency

def Loop.Quiet (s : Loop) : Prop := ∀ task ∈ s.tasks, task.2.isFinished = true

instance (s : Loop) : Decidable s.Quiet := inferInstanceAs (Decidable (∀ task ∈ s.tasks, _))

def Loop.Calm (G : Graph) (s : Loop) : Prop :=
  (match s.phase with | .deciding => true | _ => false) = true →
    Graph.activeRejected s.document = true ∨ G.blocked s.document s.inflight = true → s.Quiet

instance (s : Loop) : Decidable (s.Calm G) := inferInstanceAs (Decidable (_ → _ → _))

theorem Graph.decision_returned {document' : Document} {inflight : List String}
    {inspect : String → Result (Option Receipt)} (is : G.decision document inflight inspect = .returned document') :
    inflight = [] ∨ activeRejected document = true ∨ G.blocked document inflight = true := by
  unfold decision at is
  split at is
  · split_ifs at is
  · dsimp only at is
    split_ifs at is with rejected quiet passed blocked
    · exact .inr (.inl rejected)
    · exact .inl quiet.2
    · exact .inr (.inr blocked)

theorem Graph.decision_dispatched {ids inflight : List String} {inspect : String → Result (Option Receipt)}
    (is : G.decision document inflight inspect = .dispatched ids) :
    ids = (G.ready document inflight).take (G.window - inflight.length) := by
  unfold decision at is
  split at is
  · split_ifs at is
  · dsimp only at is
    split_ifs at is
    exact (Decision.dispatched.inj is).symm

namespace Loop

variable {index : ℕ} {task : String × Stage}

theorem Quiet.not_advanced {stage : Stage} (quiet : s.Quiet)
    (found : s.tasks[index]? = some task) : task.2.next stage = false := by
  have finished := quiet task (mem_of_getElem? found)
  cases at_ : task.2 with
  | finished outcome => rfl
  | _ =>
    rw [at_] at finished
    cases finished

theorem countP_set_le {tasks : List (String × Stage)}
    {p : String × Stage → Bool} {limit : ℕ} (found : tasks[index]? = some task) (bounded : tasks.countP p ≤ limit)
    {new : String × Stage} (room : p new = true → tasks.countP p < limit) : (tasks.set index new).countP p ≤ limit := by
  obtain ⟨within, rfl⟩ := List.getElem?_eq_some_iff.mp found
  rw [countP_set within]
  cases counted : p new with
  | false => simpa using sub_le_of_le_add (bounded.trans (le_add_right _ _))
  | true =>
    have := room counted
    simp only [if_true]
    omega

theorem Bounded.advance {stage : Stage} (bounded : s.Bounded G)
    (found : s.tasks[index]? = some task) (free : s.slotFree G stage = true) :
    ({ s with tasks := s.tasks.set index (task.1, stage) } : Loop).Bounded G where
  tasks := (length_set ..).trans_le bounded.tasks
  running := by
    refine countP_set_le found bounded.running fun counted => ?_
    cases stage with
    | running => exact of_decide_eq_true free
    | _ => cases counted
  judging := by
    refine countP_set_le found bounded.judging fun counted => ?_
    cases stage with
    | judging => exact of_decide_eq_true free
    | _ => cases counted

theorem Bounded.dispatch {ids : List String} (bounded : s.Bounded G)
    (room : ids.length ≤ G.window - s.tasks.length) (phase : Phase) :
    ({ s with tasks := s.tasks ++ ids.map fun id => (id, .ready), phase := phase } : Loop).Bounded G where
  tasks := by
    have := bounded.tasks
    simp only [length_append, length_map]
    omega
  running := by
    have none : (ids.map fun id => (id, Stage.ready)).countP (fun task => task.2 matches .running) = 0 := by
      simp [countP_eq_zero]
    exact (countP_append.trans (by rw [none]; rfl)).trans_le bounded.running
  judging := by
    have none : (ids.map fun id => (id, Stage.ready)).countP (fun task => task.2 matches .judging) = 0 := by
      simp [countP_eq_zero]
    exact (countP_append.trans (by rw [none]; rfl)).trans_le bounded.judging

theorem Bounded.settled {done : List Done} (bounded : s.Bounded G) : (s.settled done).Bounded G where
  tasks := (length_filter_le ..).trans bounded.tasks
  running := filter_sublist.countP_le.trans bounded.running
  judging := filter_sublist.countP_le.trans bounded.judging

inductive Took (G : Graph) (s : Loop) : Move → Loop → Prop
  | decide {inspect : String → Result (Option Receipt)} {saves : Bool} (deciding : s.phase = .deciding) :
      Took G s (.decide inspect saves) (s.decided saves (G.decision s.document s.inflight inspect))
  | advance {index : ℕ} {stage : Stage} {task : String × Stage} (found : s.tasks[index]? = some task)
      (next : task.2.next stage = true) (free : s.slotFree G stage = true) :
      Took G s (.advance index stage) { s with tasks := s.tasks.set index (task.1, stage) }
  | settle {settlings : List Settling} {done : List Done} (waiting : s.phase = .waiting)
      (finished : settlings.mapM s.done? = some done) (some_ : settlings ≠ [])
      (distinct : (settlings.map Settling.requestId).Nodup) : Took G s (.settle settlings) (s.settled done)
  | gathered {error : Error} (failing : s.phase = .failing error)
      (finished : ∀ task ∈ s.tasks, task.2.isFinished = true) :
      Took G s .gathered { s with phase := .ended (.error error) }

variable {move : Move}

theorem took_of_step (stepped : s.step G move = some s') : Took G s move s' := by
  cases move with
  | decide inspect saves =>
    dsimp only [step] at stepped
    split at stepped
    · rename_i deciding
      cases stepped
      exact .decide deciding
    · cases stepped
  | advance index stage =>
    dsimp only [step] at stepped
    split at stepped
    · rename_i task found
      split_ifs at stepped with may
      cases stepped
      exact .advance found may.1 may.2
    · cases stepped
  | settle settlings =>
    dsimp only [step] at stepped
    split at stepped
    · rename_i waiting finished
      split_ifs at stepped with may
      cases stepped
      exact .settle waiting finished may.1 may.2
    · cases stepped
  | gathered =>
    dsimp only [step] at stepped
    split at stepped
    · rename_i error failing
      split_ifs at stepped with finished
      cases stepped
      exact .gathered failing (all_eq_true.mp finished)
    · cases stepped

theorem Took.bounded (took : Took G s move s') (bounded : s.Bounded G) : s'.Bounded G := by
  cases took with
  | @decide inspect saves deciding =>
    cases made : G.decision s.document s.inflight inspect with
    | returned document => cases saves <;> exact ⟨bounded.tasks, bounded.running, bounded.judging⟩
    | rejected document error => cases saves <;> exact ⟨bounded.tasks, bounded.running, bounded.judging⟩
    | raised error => exact ⟨bounded.tasks, bounded.running, bounded.judging⟩
    | dispatched ids =>
      refine bounded.dispatch ?_ .waiting
      rw [Graph.decision_dispatched made]
      exact (length_take_le ..).trans_eq (congrArg _ (length_map ..))
  | advance found next free => exact bounded.advance found free
  | settle waiting finished some_ distinct => exact bounded.settled
  | gathered failing finished => exact ⟨bounded.tasks, bounded.running, bounded.judging⟩

theorem Reaches.bounded (reaches : Reaches G allowed document s) : s.Bounded G := by
  induction reaches with
  | start => exact ⟨zero_le _, zero_le _, zero_le _⟩
  | step _ _ stepped ih => exact (took_of_step stepped).bounded ih

theorem Took.quiet (took : Took G s move s') (calm : s.Calm G)
    (before : s.phase.isEnded = true → s.Quiet) (ended : s'.phase.isEnded = true) : s'.Quiet := by
  cases took with
  | @decide inspect saves deciding =>
    cases made : G.decision s.document s.inflight inspect with
    | returned document =>
      rw [made] at ended
      cases saves with
      | false => cases ended
      | true =>
        obtain none | rejected := Graph.decision_returned made
        · intro task member
          rw [decided, if_pos rfl, map_eq_nil_iff.mp none] at member
          cases member
        · exact calm (by rw [deciding]) rejected
    | rejected document error =>
      rw [made] at ended
      cases saves <;> cases ended
    | raised error =>
      rw [made] at ended
      cases ended
    | dispatched ids =>
      rw [made] at ended
      cases ended
  | advance found next free =>
    rw [(before ended).not_advanced found] at next
    cases next
  | settle waiting finished some_ distinct =>
    unfold settled at ended
    split at ended
    rename_i stop _
    cases stop <;> cases ended
  | gathered failing finished => exact finished

/-- In a resume whose loop is calm nothing is left running, whichever way it ends. -/
theorem resume_leaves_nothing_running (reaches : Reaches G (Loop.Calm G) document s) :
    s.Bounded G ∧ (s.phase.isEnded = true → s.Quiet) := by
  refine ⟨reaches.bounded, ?_⟩
  induction reaches with
  | start => exact fun ended => by cases ended
  | step _ calm stepped ih => exact (took_of_step stepped).quiet calm ih

def after (G : Graph) (allowed : Loop → Prop) [DecidablePred allowed] : List Move → Loop → Option Loop
  | [], s => some s
  | move :: rest, s => if allowed s then (s.step G move).bind (after G allowed rest) else none

theorem Reaches.after [DecidablePred allowed] {moves : List Move} (reaches : Reaches G allowed document s)
    (ran : Loop.after G allowed moves s = some s') : Reaches G allowed document s' := by
  induction moves generalizing s with
  | nil =>
    cases ran
    exact reaches
  | cons move rest ih =>
    rw [Loop.after] at ran
    split_ifs at ran with may
    obtain ⟨middle, stepped, rest⟩ := bind_eq_some_iff.mp ran
    exact ih (reaches.step may stepped) rest

def sampleGraph (jobs : List String) : Graph := ⟨jobs, fun _ => [], ⟨2, 1⟩⟩

def sampleStarted (jobs : List String) : Document :=
  ⟨"EP8", "digest", "packet", jobs.map fun id => ⟨id, "spec", none⟩, [], ⟨2, 1⟩, [], fun _ => none,
    fun _ => none, .running⟩

def sampleVerdict (id : String) (approved : Bool) : QaAnswer :=
  ⟨some id, some "result", some ⟨some "reviewer", some "studio"⟩, approved, some "reviewer"⟩

def sampleTask (index : ℕ) (id : String) (approved : Bool) : List Move :=
  [.advance index .running, .advance index .ran, .advance index .judging,
    .advance index (.finished (.ok ("result", some (some (sampleVerdict id approved))))),
    .settle [⟨id, none, true⟩]]

def sampleInspection (id : String) : Result (Option Receipt) :=
  .ok (some ⟨"COMPLETE", id, some "result", true, some "result"⟩)

theorem approved_resume_leaves_nothing : ∃ s : Loop, s.phase.isEnded = true ∧ s.Bounded (sampleGraph ["a"]) ∧
      (s.phase.isEnded = true → s.Quiet) := by
  have ran : (Loop.after (sampleGraph ["a"]) (Loop.Calm (sampleGraph ["a"]))
      (.decide sampleInspection true :: sampleTask 0 "a" true ++ [.decide sampleInspection true])
      (start (sampleStarted ["a"]))).any (fun s => s.phase.isEnded) = true := by
    decide
  obtain ⟨s, reached, ended⟩ := (any_eq_true _ _).mp ran
  exact ⟨s, ended, resume_leaves_nothing_running (Reaches.start.after reached)⟩

theorem refused_resume_leaves_task :
    ∃ s : Loop, Reaches (sampleGraph ["a", "b"]) (fun _ => True) (sampleStarted ["a", "b"]) s ∧
      s.phase.isEnded = true ∧ ¬ s.Quiet := by
  have ran : (Loop.after (sampleGraph ["a", "b"]) (fun _ => True)
      (.decide sampleInspection true :: .advance 1 .running :: sampleTask 0 "a" false ++
        [.decide sampleInspection true])
      (start (sampleStarted ["a", "b"]))).any (fun s => s.phase.isEnded && !decide s.Quiet) = true := by
    decide
  obtain ⟨s, reached, left⟩ := (any_eq_true _ _).mp ran
  obtain ⟨ended, busy⟩ := Bool.and_eq_true_iff.mp left
  exact ⟨s, Reaches.start.after reached, ended, by simpa using busy⟩

end Loop

end VideoPoster.Autonomous
