import VideoPoster.Worker.Conduct

/-!
# The published snapshot
-/

namespace VideoPoster.Worker
open Python Tables Interleaving Program World TaskKind Option

variable {plus : ℚ → ℚ → ℚ} {oracles : ℕ → Oracle} {pid : ℕ}

def World.Settled (w : World) : Prop :=
  ∃ generatedAt, w.snapshot = some (.current generatedAt w.tasks.rowsByEpisode)

def marked (oracles : ℕ → Oracle) (pid : ℕ) (s : Shared (machine plus)) : Shared (machine plus) :=
  ⟨{ s.world with
      writer := some pid
      snapshot := some (.writerInProgress (oracles (s.trace.length + 1)).now) },
    ⟨pid, .mark, ()⟩ :: ⟨pid, .lockWriter, ()⟩ :: s.trace⟩

variable {s s' : Shared (machine plus)}

theorem evaluate_writing {α : Type} {body : Program α} (free : s.world.writer = none) {result : Except Error α}
    (ran : (writing body).evaluate oracles pid s = some (result, s')) : ∃ last, body.evaluate
    oracles pid (marked oracles pid s) = some (result, last) ∧ s'.world = { last.world with writer := none } := by
  have started : (writing body).evaluate oracles pid s =
      (body.ensuring (.act .unlockWriter .pure)).evaluate oracles pid (marked oracles pid s) := by
    simp only [writing, Prog.bind, Prog.ensuring, Prog.attempt, Prog.evaluate, exec, free,
      if_true, marked, List.length_cons]
  rw [started, Prog.ensuring, Prog.evaluate_bind_eq_some] at ran
  rcases ran with ⟨outcome, last, attempted, ran⟩ | ⟨e, attempted, -⟩
  · obtain ⟨_, ⟨⟩, body⟩ := Prog.evaluate_attempt_eq_some.mp attempted
    refine ⟨last, ?_⟩
    cases outcome with
    | ok value =>
      cases ran
      exact ⟨body, rfl⟩
    | error e =>
      cases ran
      exact ⟨body, rfl⟩
  · obtain ⟨_, ⟨⟩, -⟩ := Prog.evaluate_attempt_eq_some.mp attempted

variable {condition : Prop} {error : Error}

theorem require_pos [Decidable condition] (holds : condition) : Program.require condition error = .pure () := by
  simp [Program.require, Python.require, holds, Prog.ofExcept]

theorem require_neg [Decidable condition] (fails : ¬ condition) : Program.require condition error = .raise error := by
  simp [Program.require, Python.require, fails, Prog.ofExcept]

/-! ## The parts of a body -/

/-- If the condition holds, the body publishes and `post` holds of its result and the tasks;
otherwise it raises and leaves the world as it is. -/
def Publishes {α : Type} (oracles : ℕ → Oracle) (pid : ℕ) (body : Program α)
    (s : Shared (machine plus)) (condition : Prop) (post : α → Tasks → Prop) : Prop :=
  ∀ result last, body.evaluate oracles pid s = some (result, last) →
    (condition ∧ last.world.Settled ∧ ∃ value, result = .ok value ∧ post value last.world.tasks) ∨
    (¬ condition ∧ last.world = s.world ∧ ∃ e, result = .error e)

def Shows (store : LeaseStore) (lease : EpisodeLease) (episodeId workerId : String) (now : ℚ) :
    Prop :=
  (lease.episodeId = episodeId ∧ startsWith lease.runId (workerId ++ ":") = true) ∧ store.Active lease now

def Queued (episodeId : String) (tasks : Tasks) : Prop := ∃ row, tasks.find? episodeId = some row

section Parts
variable {α : Type} {condition : Prop} {s : Shared (machine plus)} {post : α → Tasks → Prop}

variable {body : Program α}

theorem Publishes.congr {other : Prop} (iff : condition ↔ other)
    (publishes : Publishes oracles pid body s condition post) : Publishes oracles pid body s other post := by
  rw [Publishes] at publishes ⊢
  simpa only [iff] using publishes

theorem Publishes.time {rest : ℚ → Program α} (publishes : Publishes oracles pid (rest (oracles s.trace.length).now)
      ⟨s.world, ⟨pid, .time, (oracles s.trace.length).now⟩ :: s.trace⟩ condition post) :
    Publishes oracles pid (time.bind rest) s condition post :=
  publishes

theorem evaluate_publish {result : Except Error Unit} {last : Shared (machine plus)} (ran : publish.evaluate
    oracles pid s = some (result, last)) : result = .ok () ∧ last.world.Settled ∧ last.world.tasks = s.world.tasks := by
  cases ran
  exact ⟨rfl, ⟨_, rfl⟩, rfl⟩

theorem Publishes.active {lease : EpisodeLease} {episodeId workerId : String} {now : ℚ} {rest : Unit → Program α}
    (publishes : ∀ trace, Publishes oracles pid (rest ()) (⟨s.world, trace⟩ : Shared (machine plus)) condition post) :
    Publishes oracles pid ((active lease episodeId workerId now).bind rest) s
      (Shows s.world.store lease episodeId workerId now ∧ condition) post := by
  intro result last ran
  by_cases own : lease.episodeId = episodeId ∧ startsWith lease.runId (workerId ++ ":") = true
  · have checked : (Program.active lease episodeId workerId now).bind rest =
        (assertActive lease now).bind rest := by
      rw [Program.active, require_pos own]
      rfl
    rw [checked] at ran
    by_cases active : s.world.store.Active lease now
    · have next : (rest ()).evaluate oracles pid
          ⟨s.world, ⟨pid, .assertActive lease now, .ok ()⟩ :: s.trace⟩ = some (result, last) := by
        rw [← ran]
        simp [assertActive, Prog.request, Prog.bind, Prog.evaluate, exec,
          LeaseStore.assertActive, Python.require, active, Prog.ofExcept]
      rcases publishes _ result last next with ⟨holds, rest⟩ | ⟨fails, rest⟩
      · exact .inl ⟨⟨⟨own, active⟩, holds⟩, rest⟩
      · exact .inr ⟨fun both => fails both.2, rest⟩
    · refine .inr ⟨fun both => active both.1.2, ?_⟩
      simp [assertActive, Prog.request, Prog.bind, Prog.evaluate, exec,
        LeaseStore.assertActive, Python.require, active, Prog.ofExcept] at ran
      obtain ⟨rfl, rfl⟩ := ran
      exact ⟨rfl, _, rfl⟩
  · refine .inr ⟨fun both => own both.1.1, ?_⟩
    have refused : (Program.active lease episodeId workerId now).bind rest =
        .raise (.runtime "stale worker/lease cannot mutate task") := by
      rw [Program.active, require_neg own]
      rfl
    rw [refused] at ran
    cases ran
    exact ⟨rfl, _, rfl⟩

variable {action : Act}

theorem Publishes.commit {response : action.Res → Result Unit} {changed : Result Tasks} (after : Tasks → Prop) (ok : ∀
    tasks, changed = .ok tasks → after tasks ∧ ∃ r, response r = .ok () ∧ exec plus (oracles s.trace.length) pid s.world
    action = some ({ s.world with tasks := tasks }, r)) (error : ∀ e, changed = .error e → ∃ r, response r = .error e ∧
    exec plus (oracles s.trace.length) pid s.world action = some (s.world, r)) : Publishes oracles pid ((Prog.request
    action response).bind fun _ => publish) s (∃ tasks, changed = .ok tasks) fun _ => after := by
  intro result last ran
  simp only [Prog.request, Prog.bind, Prog.evaluate] at ran
  cases outcome : changed with
  | ok tasks =>
    obtain ⟨holds, r, accepted, executed⟩ := ok tasks outcome
    simp only [executed, accepted, Prog.ofExcept, Prog.bind] at ran
    obtain ⟨rfl, settled, kept⟩ := evaluate_publish ran
    exact .inl ⟨⟨tasks, rfl⟩, settled, (), rfl, kept ▸ holds⟩
  | error e =>
    obtain ⟨r, refused, executed⟩ := error e outcome
    simp only [executed, refused, Prog.ofExcept, Prog.bind, Prog.evaluate] at ran
    cases ran
    exact .inr ⟨by simp, rfl, e, rfl⟩

theorem Publishes.act {value : action.Res → α} {tasks : Tasks} {r : action.Res}
    (executed : exec plus (oracles s.trace.length) pid s.world action = some ({ s.world with tasks := tasks }, r))
    (holds : post (value r) tasks) : Publishes oracles pid ((Prog.act action .pure).bind
    fun r => publish.bind fun _ => .pure (value r)) s True post := by
  intro result last ran
  simp only [publish, Prog.bind, Prog.evaluate, executed] at ran
  cases ran
  exact .inl ⟨trivial, ⟨_, rfl⟩, _, rfl, holds⟩

theorem Publishes.writing (free : s.world.writer = none) (publishes : Publishes oracles pid body (marked oracles pid s)
    condition post) {result : Except Error α} {s' : Shared (machine plus)} (ran : (writing body).evaluate
    oracles pid s = some (result, s')) : (condition ∧ s'.world.Settled ∧ ∃ value, result = .ok value ∧ post value
    s'.world.tasks) ∨ (¬ condition ∧ ¬ s'.world.Settled ∧ s'.world.tasks = s.world.tasks ∧ ∃ e, result = .error e) := by
  obtain ⟨last, evaluated, unlocked⟩ := evaluate_writing free ran
  rcases publishes result last evaluated with ⟨holds, ⟨readAt, settled⟩, rest⟩ | ⟨fails, kept, rest⟩
  · refine .inl ⟨holds, ⟨readAt, ?_⟩, ?_⟩
    · rw [unlocked]
      exact settled
    · rw [unlocked]
      exact rest
  · refine .inr ⟨fails, ?_, ?_, rest⟩
    · rintro ⟨readAt, current⟩
      rw [unlocked, kept] at current
      cases current
    · rw [unlocked, kept]
      rfl

end Parts

/-! ## The operations -/

inductive Op where
  | enqueue (episodeId root kind : String)
  | claim (episodeId workerId : String) (lease : EpisodeLease) (now : Option ℚ)
  | complete (episodeId workerId : String) (lease : EpisodeLease) (outcome : Dict) (now : Option ℚ)
  | retry (episodeId workerId : String) (lease : EpisodeLease) (action : String)
  | unknown (episodeId workerId : String) (lease : EpisodeLease)
  | wakeGate (episodeId gate : String)

namespace Op

def call : Op → Call
  | enqueue episodeId root kind => .enqueue episodeId root kind
  | claim episodeId workerId lease now => .claim episodeId workerId lease now
  | complete episodeId workerId lease outcome now =>
    .complete episodeId workerId lease outcome now
  | retry episodeId workerId lease action => .retry episodeId workerId lease action
  | unknown episodeId workerId lease => .unknown episodeId workerId lease
  | wakeGate episodeId gate => .wakeGate episodeId gate

/-- The operation gets as far as its marker: its arguments are well formed, and a gate to be woken
has a task and an approved receipt. -/
def Begins (w : World) (files : RunnerFiles) : Op → Prop
  | enqueue episodeId root kind =>
    episodeId ≠ "" ∧ root ≠ "" ∧ (ofText kind).isSome = true
  | complete _ _ _ outcome _ => ∃ made, completion outcome = .ok made
  | wakeGate episodeId gate =>
    (∃ expected, expectedAction gate = some expected) ∧
      (∃ row, w.tasks.find? episodeId = some row) ∧ ∃ hash, files.approvedHash = .ok hash
  | _ => True

/-- Nothing after the marker refuses it: the lease is active at the clock reading `now`, and the row
is as the operation needs it. -/
def Passes (w : World) (now : ℚ) : Op → Prop
  | enqueue episodeId root kind => ∀ row, w.tasks.find? episodeId = some row →
      row.root = root ∧ ofText kind = some row.kind
  | claim episodeId workerId lease given =>
    Shows w.store lease episodeId workerId (given.getD now) ∧
      ∃ row, w.tasks.find? episodeId = some row ∧ Tasks.Claimable row
  | complete episodeId workerId lease _ given =>
    Shows w.store lease episodeId workerId (given.getD now) ∧
      ∃ row, w.tasks.find? episodeId = some row ∧ row.HeldBy workerId lease.fencingToken
  | retry episodeId workerId lease _ => Shows w.store lease episodeId workerId now
  | unknown episodeId workerId lease => Shows w.store lease episodeId workerId now ∧
      ∃ row, w.tasks.find? episodeId = some row ∧ row.HeldBy workerId lease.fencingToken
  | wakeGate _ _ => True

def clockStep : Op → ℕ
  | claim _ _ _ _ => 0
  | _ => 2

end Op

/-- What is asked of an operation: the snapshot shows the table, and one that raises has not changed
the table. -/
def Follows {α : Type} (w : World) (result : Except Error α) (w' : World) : Prop :=
  w'.Settled ∧ ∀ e, result = .error e → w'.tasks = w.tasks

section Follows
variable {α β : Type} {condition : Prop} {s s' : Shared (machine plus)} {post : α → Tasks → Prop}

theorem follows_writing {body : Program α} {next : α → Program β} {result : Except Error β}
    (free : s.world.writer = none) (publishes : Publishes oracles pid body (marked oracles pid s) condition post)
    (quiet : ∀ {value : α} {result : Except Error β} {middle last : Shared (machine plus)}, post value
    middle.world.tasks → (next value).evaluate oracles pid middle = some (result, last) → last.world = middle.world ∧
    ∀ e, result = .error e → middle.world.tasks = s.world.tasks) (ran : ((writing body).bind next).evaluate
    oracles pid s = some (result, s')) : Follows s.world result s'.world ↔ condition := by
  rcases Prog.evaluate_bind_eq_some.mp ran with ⟨value, middle, wrote, looked⟩ | ⟨e, wrote, is⟩
  · rcases publishes.writing free wrote with ⟨holds, settled, _, ⟨⟩, after⟩ | ⟨-, -, -, _, ⟨⟩⟩
    obtain ⟨same, kept⟩ := quiet after looked
    rw [Follows, same]
    exact ⟨fun _ => holds, fun _ => ⟨settled, kept⟩⟩
  · rcases publishes.writing free wrote with ⟨-, -, _, ⟨⟩, -⟩ | ⟨fails, stale, -⟩
    exact ⟨fun follows => absurd follows.1 stale, fun holds => absurd holds fails⟩

variable {result : Except Error Unit}

theorem follows_only_writing {body : Program Unit} (free : s.world.writer = none)
    (publishes : Publishes oracles pid body (marked oracles pid s) condition fun _ _ => True) (ran : (writing
    body).evaluate oracles pid s = some (result, s')) : Follows s.world result s'.world ↔ condition := by
  rw [← Prog.bind_pure (writing body)] at ran
  refine follows_writing free publishes ?_ ran
  intro value result middle last _ ended
  cases ended
  exact ⟨rfl, nofun⟩

theorem follows_of_same {result : Except Error α} (same : s'.world = s.world) :
    Follows s.world result s'.world ↔ s.world.Settled := by
  rw [Follows, same]
  exact ⟨And.left, fun settled => ⟨settled, fun _ _ => rfl⟩⟩

variable {episodeId : String}

theorem evaluate_status {result : Except Error TaskRow} (ran : (status episodeId).evaluate oracles pid s =
    some (result, s')) : s'.world = s.world ∧ ((∃ e, result = .error e) ↔ ¬ Queued episodeId s.world.tasks) := by
  simp only [status, Prog.request, Prog.evaluate, exec] at ran
  cases found : s.world.tasks.find? episodeId with
  | none =>
    rw [found] at ran
    cases ran
    exact ⟨rfl, by simp [Queued, found]⟩
  | some row =>
    rw [found] at ran
    cases ran
    exact ⟨rfl, by simp [Queued, found]⟩

theorem quiet_status {tasks : Tasks} (queued : Queued episodeId s.world.tasks)
    (ran : ((status episodeId).bind fun _ => .pure ()).evaluate oracles pid s = some (result, s')) :
    s'.world = s.world ∧ ∀ e, result = .error e → s.world.tasks = tasks := by
  rcases Prog.evaluate_bind_eq_some.mp ran with ⟨row, middle, looked, ended⟩ | ⟨e, looked, -⟩
  · cases ended
    exact ⟨(evaluate_status looked).1, nofun⟩
  · exact absurd queued ((evaluate_status looked).2.mp ⟨e, rfl⟩)

end Follows

section Tasks
variable {tasks changed : Tasks} {episodeId : String} {matching : TaskRow → Prop}
  [DecidablePred matching] {change : TaskRow → TaskRow}

theorem queued_put {row : TaskRow} (same : row.episodeId = episodeId) : Queued episodeId (tasks.put row) :=
  ⟨row, same ▸ Table.find?_put_self tasks row⟩

theorem update_ne_none (change : TaskRow → TaskRow) : (∃ changed, tasks.update episodeId matching change = some changed)
    ↔ ∃ row, tasks.find? episodeId = some row ∧ matching row := by
  unfold Tasks.update
  cases tasks.find? episodeId with
  | none => simp
  | some row => by_cases holds : matching row <;> simp [holds]

theorem queued_update (updated : tasks.update episodeId matching change = some changed)
    (same : ∀ row, (change row).episodeId = row.episodeId) : Queued episodeId changed := by
  obtain ⟨row, -, rfl, -, rfl⟩ := Tasks.update_eq_some updated
  exact queued_put (same row)

theorem enqueue_ok (root : String) (kind : TaskKind) (now : ℚ) : (∃ changed, tasks.enqueue episodeId root kind now =
    .ok changed) ↔ ∀ row, tasks.find? episodeId = some row → row.root = root ∧ row.kind = kind := by
  unfold Tasks.enqueue
  cases tasks.find? episodeId with
  | none => simp
  | some row => by_cases holds : row.root = root ∧ row.kind = kind <;> simp [holds]

theorem queued_enqueue {root : String} {kind : TaskKind} {now : ℚ}
    (enqueued : tasks.enqueue episodeId root kind now = .ok changed) : Queued episodeId changed := by
  unfold Tasks.enqueue at enqueued
  split at enqueued
  · rename_i row found
    split at enqueued <;> cases enqueued
    exact ⟨row, found⟩
  · cases enqueued
    exact queued_put rfl

variable {result : Result Tasks} {error : Error}

section
variable (is : result = (tasks.update episodeId matching change).elim (.error error) .ok)
include is

theorem ok_iff_update : (∃ changed, result = .ok changed) ↔ ∃ row, tasks.find? episodeId = some row ∧ matching row := by
  rw [← update_ne_none change, is]
  cases tasks.update episodeId matching change <;> simp

theorem queued_of_update
    (same : ∀ row, (change row).episodeId = row.episodeId) (ok : result = .ok changed) : Queued episodeId changed := by
  rw [is] at ok
  cases updated : tasks.update episodeId matching change with
  | none =>
    rw [updated] at ok
    cases ok
  | some tasks =>
    rw [updated] at ok
    cases ok
    exact queued_update updated same

end

variable (tasks episodeId) (workerId : String) (token : ℤ) (now : ℚ)

theorem claim_eq : tasks.claim episodeId workerId token now =
    (tasks.update episodeId Tasks.Claimable (·.claimed workerId token now)).elim
      (.error (.runtime "task is not eligible for recovery")) .ok := by
  unfold Tasks.claim
  cases tasks.update episodeId Tasks.Claimable (·.claimed workerId token now) <;> rfl

theorem complete_eq (completion : Completion) : tasks.complete episodeId workerId token completion now =
      (tasks.update episodeId (·.HeldBy workerId token) (·.completed completion now)).elim
        (.error (.runtime "stale worker/epoch cannot mutate task")) .ok := by
  unfold Tasks.complete
  cases tasks.update episodeId (·.HeldBy workerId token) (·.completed completion now) <;> rfl

theorem unknown_eq : tasks.unknown episodeId workerId token now =
    (tasks.update episodeId (·.HeldBy workerId token) (·.quarantined now)).elim
      (.error (.runtime "stale worker/epoch cannot quarantine task")) .ok := by
  unfold Tasks.unknown
  cases tasks.update episodeId (·.HeldBy workerId token) (·.quarantined now) <;> rfl

def Woke (before : Tasks) (episodeId : String) (changed : ℕ) (tasks : Tasks) : Prop :=
  changed = 1 ∧ Queued episodeId tasks ∨ changed ≠ 1 ∧ tasks = before

theorem woke_wake (expected hash : String) : Woke tasks episodeId (tasks.wake episodeId expected hash now).2
      (tasks.wake episodeId expected hash now).1 := by
  unfold Tasks.wake
  split
  · rename_i changed updated
    exact .inl ⟨rfl, queued_update updated fun _ => rfl⟩
  · exact .inr ⟨zero_ne_one, rfl⟩

end Tasks

section Operations
variable {s s' : Shared (machine plus)} {result : Except Error Unit} {episodeId workerId : String}
  {lease : EpisodeLease}

variable {given : Option ℚ}

section
variable (free : s.world.writer = none)
include free

theorem follows_claim (ran :
    (Op.claim episodeId workerId lease given).call.program.evaluate oracles pid s = some (result, s')) : Follows s.world
    result s'.world ↔ (Op.claim episodeId workerId lease given).Passes s.world (oracles s.trace.length).now := by
  have writes : ∀ (now : ℚ) (trace : List (Event actions)), ((writing do
        active lease episodeId workerId now
        Prog.request (.claim episodeId workerId lease.fencingToken now) id
        publish).bind fun _ => (status episodeId).bind fun _ => .pure ()).evaluate
          oracles pid (⟨s.world, trace⟩ : Shared (machine plus)) = some (result, s') →
      (Follows s.world result s'.world ↔ Shows s.world.store lease episodeId workerId now ∧
        ∃ row, s.world.tasks.find? episodeId = some row ∧ Tasks.Claimable row) := by
    intro now trace ran
    rw [← ok_iff_update (claim_eq s.world.tasks episodeId workerId lease.fencingToken now)]
    refine follows_writing (s := ⟨s.world, trace⟩) free (Publishes.active fun trace =>
      Publishes.commit (Queued episodeId) ?_ ?_) quiet_status ran
    · intro tasks changed
      refine ⟨queued_of_update (claim_eq ..) (fun _ => rfl) changed, .ok (), rfl, ?_⟩
      exact congrArg (fun r => some (commit _ r)) changed
    · intro e refused
      exact ⟨.error e, rfl, congrArg (fun r => some (commit _ r)) refused⟩
  cases given with
  | none =>
    refine writes _ (⟨pid, .time, (oracles s.trace.length).now⟩ :: s.trace) ?_
    rw [← ran]
    simp only [Op.call, Call.program, Prog.discard, claim, timeOr, bind, Prog.bind_assoc]
    rfl
  | some now =>
    refine writes _ s.trace ?_
    rw [← ran]
    simp only [Op.call, Call.program, Prog.discard, claim, timeOr, bind, Prog.bind_assoc]
    rfl

theorem follows_enqueue {root kind : String} (ran : (Op.enqueue episodeId root
    kind).call.program.evaluate oracles pid s = some (result, s')) (files : RunnerFiles) (now : ℚ) : Follows s.world
    result s'.world ↔ ((Op.enqueue episodeId root kind).Begins s.world files → (Op.enqueue episodeId root kind).Passes
    s.world now) ∧ (¬ (Op.enqueue episodeId root kind).Begins s.world files → s.world.Settled) := by
  by_cases begins : episodeId ≠ "" ∧ root ≠ "" ∧ (ofText kind).isSome = true
  · obtain ⟨taskKind, named⟩ := isSome_iff_exists.mp begins.2.2
    have writes : ((writing do
        let now ← time
        Prog.request
          (.enqueue episodeId root ((ofText kind).getD .fixture) now) id
        publish).bind fun _ => (status episodeId).bind fun _ => .pure ()).evaluate
          oracles pid s = some (result, s') := by
      rw [← ran]
      simp only [Op.call, Call.program, Prog.discard, Program.enqueue, require_pos begins, bind, Prog.bind_assoc]
      rfl
    have follows : Follows s.world result s'.world ↔ ∃ tasks, s.world.tasks.enqueue episodeId root
        ((ofText kind).getD .fixture) (oracles (s.trace.length + 2)).now = .ok tasks := by
      refine follows_writing free (Publishes.time (Publishes.commit (Queued episodeId) ?_ ?_)) quiet_status writes
      · intro tasks changed
        exact ⟨queued_enqueue changed, .ok (), rfl, congrArg (fun r => some (commit _ r)) changed⟩
      · intro e refused
        exact ⟨.error e, rfl, congrArg (fun r => some (commit _ r)) refused⟩
    rw [follows, enqueue_ok]
    have started : (Op.enqueue episodeId root kind).Begins s.world files := begins
    simp only [started, Op.Passes, named, getD_some, some.injEq, not_true,
      IsEmpty.forall_iff, and_true, forall_const, eq_comm]
  · have same : s'.world = s.world := by
      simp only [Op.call, Call.program, Prog.discard, Program.enqueue, require_neg begins, bind,
        Prog.bind, Prog.evaluate] at ran
      cases ran
      rfl
    have stopped : ¬ (Op.enqueue episodeId root kind).Begins s.world files := begins
    rw [follows_of_same same]
    simp [stopped]

theorem follows_complete {outcome : Dict} (ran : (Op.complete episodeId
    workerId lease outcome given).call.program.evaluate oracles pid s = some (result, s')) (files : RunnerFiles) :
    Follows s.world result s'.world ↔ ((Op.complete episodeId workerId lease outcome given).Begins s.world files →
    (Op.complete episodeId workerId lease outcome given).Passes s.world (oracles (s.trace.length + 2)).now)
    ∧ (¬ (Op.complete episodeId workerId lease outcome given).Begins s.world files → s.world.Settled) := by
  cases decided : completion outcome with
  | ok made =>
    have body : ∀ (now : ℚ) (t : Shared (machine plus)), t.world = (marked oracles pid s).world →
        Publishes oracles pid (do
          active lease episodeId workerId now
          Prog.request
            (.complete episodeId workerId lease.fencingToken made now) id
          publish) t
        (Shows s.world.store lease episodeId workerId now ∧ ∃ tasks,
          s.world.tasks.complete episodeId workerId lease.fencingToken made now = .ok tasks)
        fun _ => Queued episodeId := by
      rintro now ⟨_, trace⟩ rfl
      refine Publishes.active fun trace => Publishes.commit (Queued episodeId) ?_ ?_
      · intro tasks changed
        refine ⟨queued_of_update (complete_eq ..) (fun _ => rfl) changed, .ok (), rfl, ?_⟩
        exact congrArg (fun r => some (commit _ r)) changed
      · intro e refused
        exact ⟨.error e, rfl, congrArg (fun r => some (commit _ r)) refused⟩
    have writes : ((writing do
        let now ← timeOr given
        active lease episodeId workerId now
        Prog.request
          (.complete episodeId workerId lease.fencingToken made now) id
        publish).bind fun _ => (status episodeId).bind fun _ => .pure ()).evaluate
          oracles pid s = some (result, s') := by
      rw [← ran]
      simp only [Op.call, Call.program, Prog.discard, complete, decided, bind, Prog.bind_assoc]
      rfl
    have begins : (Op.complete episodeId workerId lease outcome given).Begins s.world files :=
      ⟨made, decided⟩
    simp only [begins, forall_const, not_true, IsEmpty.forall_iff, and_true, Op.Passes]
    rw [← ok_iff_update (complete_eq s.world.tasks episodeId workerId lease.fencingToken
      (given.getD (oracles (s.trace.length + 2)).now) made)]
    cases given with
    | none =>
      refine follows_writing free (Publishes.time ?_) quiet_status writes
      exact body _ ⟨_, _⟩ rfl
    | some now => exact follows_writing free (body now _ rfl) quiet_status writes
  | error e =>
    have same : s'.world = s.world := by
      simp only [Op.call, Call.program, Prog.discard, complete, decided, Prog.ofExcept,
        bind, Prog.bind, Prog.evaluate] at ran
      cases ran
      rfl
    have stopped : ¬ (Op.complete episodeId workerId lease outcome given).Begins s.world files := by
      rintro ⟨made, is⟩
      rw [decided] at is
      cases is
    rw [follows_of_same same]
    simp [stopped]

theorem follows_retry {action : String} (ran : (Op.retry episodeId
    workerId lease action).call.program.evaluate oracles pid s = some (result, s')) : Follows s.world result s'.world ↔
    (Op.retry episodeId workerId lease action).Passes s.world (oracles (s.trace.length + 2)).now := by
  have follows : Follows s.world result s'.world ↔
      Shows s.world.store lease episodeId workerId (oracles (s.trace.length + 2)).now ∧ True := by
    refine follows_only_writing free (Publishes.time (Publishes.active fun trace =>
      Publishes.time ?_)) ran
    change Publishes oracles pid ((Prog.act (I := actions) (.retry episodeId workerId
      lease.fencingToken action _) .pure).bind fun _ => publish.bind fun _ => .pure ()) _ _ _
    exact Publishes.act rfl trivial
  rw [follows, and_true]
  rfl

theorem follows_unknown (ran :
    (Op.unknown episodeId workerId lease).call.program.evaluate oracles pid s = some (result, s')) : Follows s.world
    result s'.world ↔ (Op.unknown episodeId workerId lease).Passes s.world (oracles (s.trace.length + 2)).now := by
  refine follows_only_writing free (Publishes.time (Publishes.active fun trace =>
    (Publishes.time (Publishes.commit (fun _ => True) ?_ ?_)).congr
      (ok_iff_update (unknown_eq s.world.tasks episodeId workerId lease.fencingToken (oracles trace.length).now)))) ran
  · intro tasks changed
    exact ⟨trivial, .ok (), rfl, congrArg (fun r => some (commit _ r)) changed⟩
  · intro e refused
    exact ⟨.error e, rfl, congrArg (fun r => some (commit _ r)) refused⟩

end

theorem quiet_wakeGate {before : Tasks} {changed : ℕ} (woke : Woke before episodeId changed s.world.tasks)
    (ran : ((Program.require (changed = 1) (.runtime "no matching durable human gate is waiting")).bind
      fun _ => (Program.status episodeId).bind fun _ => .pure ()).evaluate oracles pid s =
        some (result, s')) :
    s'.world = s.world ∧ ∀ e, result = .error e → s.world.tasks = before := by
  rcases woke with ⟨rfl, queued⟩ | ⟨other, rfl⟩
  · rw [require_pos rfl] at ran
    exact quiet_status queued ran
  · rw [require_neg other] at ran
    cases ran
    exact ⟨rfl, fun _ _ => rfl⟩

def wakes (episodeId expected hash : String) : Program Unit :=
  (writing do
    let now ← time
    let changed : ℕ ← .act (.wake episodeId expected hash now) .pure
    publish
    pure changed).bind fun changed =>
      (Program.require (changed = 1) (.runtime "no matching durable human gate is waiting")).bind
        fun _ => (status episodeId).bind fun _ => .pure ()

variable {expected hash : String}

theorem follows_wakes (free : s.world.writer = none) (ran :
    (wakes episodeId expected hash).evaluate oracles pid s = some (result, s')) : Follows s.world result s'.world := by
  have follows : Follows s.world result s'.world ↔ True := by
    refine follows_writing free (Publishes.time ?_) quiet_wakeGate ran
    exact Publishes.act rfl (woke_wake ..)
  exact follows.mpr trivial

variable {gate : String}

theorem wakeGate_eq {row : TaskRow} (waits : expectedAction gate = some expected) (found : s.world.tasks.find?
    episodeId = some row) (approved : (oracles (s.trace.length + 1)).files.approvedHash = .ok hash) :
    (Op.wakeGate episodeId gate).call.program.evaluate oracles pid s = (wakes episodeId expected hash).evaluate
    oracles pid ⟨s.world, ⟨pid, .runnerFiles episodeId row.root gate, (oracles (s.trace.length + 1)).files⟩ ::
    ⟨pid, .status episodeId, some row⟩ :: s.trace⟩ := by
  simp only [Op.call, Call.program, Prog.discard, Program.wakeGate, waits]
  simp only [wakes, status, Prog.request, bind, Prog.bind_assoc, Prog.bind, Prog.evaluate,
    exec, found, Prog.ofExcept, List.length_cons, approved]

theorem follows_wakeGate (free : s.world.writer = none) (ran : (Op.wakeGate episodeId gate).call.program.evaluate
    oracles pid s = some (result, s')) : Follows s.world result s'.world ↔
    (¬ (Op.wakeGate episodeId gate).Begins s.world (oracles (s.trace.length + 1)).files → s.world.Settled) := by
  have stopped : ¬ (Op.wakeGate episodeId gate).Begins s.world (oracles (s.trace.length + 1)).files →
      s'.world = s.world → (Follows s.world result s'.world ↔
        (¬ (Op.wakeGate episodeId gate).Begins s.world (oracles (s.trace.length + 1)).files → s.world.Settled)) := by
    intro early same
    rw [follows_of_same same]
    exact ⟨fun settled _ => settled, fun given => given early⟩
  cases waits : expectedAction gate with
  | none =>
    simp only [Op.call, Call.program, Prog.discard, wakeGate, waits] at ran
    cases ran
    exact stopped (by simp [Op.Begins, waits]) rfl
  | some expected =>
    cases found : s.world.tasks.find? episodeId with
    | none =>
      simp only [Op.call, Call.program, Prog.discard, wakeGate, waits, status,
        Prog.request, bind, Prog.bind, Prog.evaluate, exec, found] at ran
      cases ran
      exact stopped (by simp [Op.Begins, found]) rfl
    | some row =>
      cases approved : (oracles (s.trace.length + 1)).files.approvedHash with
      | error e =>
        simp only [Op.call, Call.program, Prog.discard, wakeGate, waits,
          status, Prog.request, bind, Prog.bind, Prog.evaluate, exec, found,
          Prog.ofExcept, List.length_cons, approved] at ran
        cases ran
        exact stopped (by simp [Op.Begins, approved]) rfl
      | ok hash =>
        have begins : (Op.wakeGate episodeId gate).Begins s.world
            (oracles (s.trace.length + 1)).files := ⟨⟨_, waits⟩, ⟨_, found⟩, ⟨_, approved⟩⟩
        rw [wakeGate_eq waits found approved] at ran
        have follows := follows_wakes (by exact free) ran
        exact ⟨fun _ late => absurd begins late, fun _ => follows⟩

end Operations

def Op.Accepted (op : Op) (oracles : ℕ → Oracle) (s : Shared (machine plus)) : Prop :=
  op.Begins s.world (oracles (s.trace.length + 1)).files →
    op.Passes s.world (oracles (s.trace.length + op.clockStep)).now

theorem follows_iff {op : Op} {result : Except Error Unit} (free : s.world.writer = none)
    (ran : op.call.program.evaluate oracles pid s = some (result, s')) : Follows s.world result s'.world ↔
    op.Accepted oracles s ∧ (¬ op.Begins s.world (oracles (s.trace.length + 1)).files → s.world.Settled) := by
  cases op with
  | enqueue episodeId root kind => exact follows_enqueue free ran _ _
  | claim episodeId workerId lease given =>
    rw [follows_claim free ran]
    simp [Op.Accepted, Op.Begins, Op.clockStep]
  | complete episodeId workerId lease outcome given => exact follows_complete free ran _
  | retry episodeId workerId lease action =>
    rw [follows_retry free ran]
    simp [Op.Accepted, Op.Begins, Op.clockStep]
  | unknown episodeId workerId lease =>
    rw [follows_unknown free ran]
    simp [Op.Accepted, Op.Begins, Op.clockStep]
  | wakeGate episodeId gate =>
    rw [follows_wakeGate free ran]
    simp [Op.Accepted, Op.Passes]

/-- Accepted operations one after the other on a new queue. In between the leases, the clock and the
lock go their own way. -/
inductive Served : Shared (machine plus) → Prop
  | new (start : ℚ) : Served ⟨new start, []⟩
  | between {s s' : Shared (machine plus)} (served : Served s)
      (tasks : s'.world.tasks = s.world.tasks) (snapshot : s'.world.snapshot = s.world.snapshot) :
      Served s'
  | operation {s s' : Shared (machine plus)} {op : Op} {oracles : ℕ → Oracle} {pid : ℕ}
      {result : Except Error Unit} (served : Served s) (free : s.world.writer = none)
      (accepted : op.Accepted oracles s)
      (ran : op.call.program.evaluate oracles pid s = some (result, s')) : Served s'

theorem Served.settled (served : Served s) : s.world.Settled := by
  induction served with
  | new start => exact ⟨start, rfl⟩
  | between _ tasks snapshot ih =>
    rw [World.Settled, tasks, snapshot]
    exact ih
  | operation _ free accepted ran ih =>
    exact ((follows_iff free ran).mpr ⟨accepted, fun _ => ih⟩).1

/-- An operation leaves a current snapshot of the table, and an unchanged table if it raises, exactly
if nothing refuses it after its marker, or if it stops before the marker and the snapshot was
current. A queue on which no operation is refused after its marker always has a current snapshot. -/
theorem snapshot_follows : (∀ (op : Op) (oracles : ℕ → Oracle) (pid : ℕ) (s s' : Shared (machine plus))
    (result : Except Error Unit), s.world.writer = none → op.call.program.evaluate oracles pid s = some (result, s') →
    (Follows s.world result s'.world ↔ op.Accepted oracles s ∧ (¬ op.Begins s.world (oracles (s.trace.length + 1)).files
    → s.world.Settled))) ∧ ∀ s : Shared (machine plus), Served s → s.world.Settled :=
  ⟨fun _ _ _ _ _ _ => follows_iff, fun _ => Served.settled⟩

def sampleEnqueue : Op := .enqueue "EP000001" "root" "fixture"

theorem sampleEnqueue_accepted : sampleEnqueue.Accepted (fun _ => clockAt 1) (⟨new 0, []⟩ : Shared (machine (· + ·))) :=
  fun _ _ found => nomatch found

theorem sampleEnqueue_follows :
    ∃ s' : Shared (machine (· + ·)), sampleEnqueue.call.program.evaluate (fun _ => clockAt 1) 0 ⟨new 0, []⟩ =
    some (.ok (), s') ∧ Follows (new 0) (.ok () : Except Error Unit) s'.world ∧ s'.world.Settled := by
  refine ⟨_, rfl, ?_, ?_⟩
  · refine (snapshot_follows.1 sampleEnqueue _ 0 ⟨new 0, []⟩ _ _ rfl rfl).mpr
      ⟨sampleEnqueue_accepted, fun _ => ⟨0, rfl⟩⟩
  · exact snapshot_follows.2 _ (.operation (.new 0) rfl sampleEnqueue_accepted rfl)

def staleClaim : Op := .claim "EP000001" "w1" ⟨"EP000001", "w1:run", 1, 0, 0, 30⟩ (some 1)

theorem staleClaim_leaves_marker : ∃ s s' : Shared (machine (· + ·)),
    Served s ∧ s.world.writer = none ∧ s.world.Settled ∧
    staleClaim.call.program.evaluate (fun _ => clockAt 1) 0 s =
      some (.error (.runtime "stale episode lease"), s') ∧
    s'.world.tasks = s.world.tasks ∧
    s'.world.snapshot = some (.writerInProgress 1) ∧ ¬ s'.world.Settled := by
  refine ⟨⟨new 0, []⟩, _, .new 0, rfl, ⟨0, rfl⟩, rfl, rfl, rfl, ?_⟩
  rintro ⟨readAt, current⟩
  cases current

end VideoPoster.Worker
