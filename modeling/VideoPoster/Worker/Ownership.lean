import VideoPoster.Worker.Conduct

/-!
# Fenced ownership of tasks
-/

namespace VideoPoster.Worker
open Python Tables Interleaving Table List Config World Option

variable {plus : ℚ → ℚ → ℚ} {kinds : Set Call} {start : ℚ} {c c' : Config (machine plus) Error}

theorem sound_of_reaches (reaches : Reaches (callsIn kinds) anyStep (initial (new start)) c) :
    (discipline plus).Sound c :=
  (Protocol.Sound.initial (QueueInv.initial start)).reaches (admits kinds) reaches

theorem step_tasks (sound : (discipline plus).Sound c)
    (step : Step (callsIn kinds) anyStep c c') : c'.world.tasks = c.world.tasks ∨ ∃ pid action response old new,
    Granted pid c.toShared action ∧ TaskStep pid ⟨pid, action, response⟩ old new ∧ c.world.tasks.find? new.episodeId =
    old ∧ c'.world.tasks = c.world.tasks.put new ∧ c'.trace = ⟨pid, action, response⟩ :: c.trace := by
  cases step with
  | spawn called => exact .inl rfl
  | crash pid => exact .inl rfl
  | @perform s' pid action response next alive performs meets =>
    have granted : Granted pid c.toShared action := sound.granted alive
    obtain ⟨oracle, executed, extended⟩ := performs
    rcases exec_tasks executed with ⟨same, -⟩ | ⟨old, new, step, before, after⟩
    · exact .inl same
    · exact .inr ⟨pid, action, response, old, new, granted, step, before, after, extended⟩

theorem claimOf_eq_none_of_finishOf {e : Event actions} {finish : String × ℤ}
    (finished : finishOf e = some finish) : claimOf e = none := by
  unfold finishOf at finished
  split at finished
  · rfl
  · rfl
  · cases finished

theorem claim_of_opened {episodeId : String} {token old : ℤ} {first : Event actions} {middle earlier :
    List (Event actions)} (finished : finishOf first = some (episodeId, old)) (isOpen : opened episodeId
    (middle ++ first :: earlier) = some token) : ∃ claim ∈ middle, claimOf claim = some (episodeId, token) := by
  induction middle with
  | nil => simp [opened, claimOf_eq_none_of_finishOf finished, finished] at isOpen
  | cons e middle ih =>
    by_cases claims : claimOf e = some (episodeId, token)
    · exact ⟨e, by simp, claims⟩
    · have rest : opened episodeId (middle ++ first :: earlier) = some token := by
        rw [cons_append, opened] at isOpen
        split at isOpen
        · rename_i claimed _ is
          split_ifs at isOpen with same
          · rw [same, some.inj isOpen] at is
            exact absurd is claims
          · exact isOpen
        · split_ifs at isOpen
          exact isOpen
        · exact isOpen
      obtain ⟨claim, member, is⟩ := ih rest
      exact ⟨claim, by simp [member], is⟩

def FinishesOpened (trace : List (Event actions)) : Prop :=
  ∀ later e earlier, trace = later ++ e :: earlier → ∀ episodeId token,
    finishOf e = some (episodeId, token) → opened episodeId earlier = some token

theorem FinishesOpened.step {pid : ℕ} {action : Act} {response : action.Res}
    {s s' : Shared (machine plus)} (inv : QueueInv s) (finishes : FinishesOpened s.trace)
    (performs : Performs pid action response s s') : FinishesOpened s'.trace := by
  obtain ⟨oracle, executed, extended⟩ := performs
  intro later e earlier split episodeId token finished
  rw [extended] at split
  cases later with
  | cons last later =>
    exact finishes later e earlier (cons.inj split).2 episodeId token finished
  | nil =>
    obtain ⟨rfl, rfl⟩ := cons.inj split
    rcases exec_tasks executed with ⟨-, -, none⟩ | ⟨old, new, step, before, -⟩
    · rw [finished] at none
      cases none
    · obtain ⟨episode, row, rfl, running, epoch⟩ := step.finished finished
      obtain ⟨member, same⟩ := find?_eq_some.mp before
      rw [← episode, ← same, inv.running row member running, epoch]

theorem finishesOpened_of_reaches (reaches : Reaches (callsIn kinds) anyStep (initial (new start)) c) :
    FinishesOpened c.trace := by
  refine Protocol.Sound.invariant (K := fun s => FinishesOpened s.trace) (admits kinds)
    (.initial (QueueInv.initial start)) ?_ ?_ ?_ reaches
  · intro pid action response s s' inv finishes _ _ performs
    exact finishes.step inv performs
  · exact fun _ _ => id
  · intro later e earlier split
    cases later <;> cases split

theorem task_ownership (reaches : Reaches (callsIn kinds) anyStep (initial (new start)) c) :
    -- a row waits exactly if it has a gate and a human's action
    (∀ row ∈ c.world.tasks, row.status = .waiting ↔ row.gateHash.isSome = true ∧ human row.nextAction = true) ∧
    -- between two completions or quarantines of a task it was claimed again, with the token of
    -- the second
    (∀ later second middle first earlier,
      c.trace = later ++ second :: (middle ++ first :: earlier) → ∀ episodeId old token,
      finishOf first = some (episodeId, old) → finishOf second = some (episodeId, token) →
      ∃ claim ∈ middle, claimOf claim = some (episodeId, token)) ∧
    ∀ c', Step (callsIn kinds) anyStep c c' →
      -- the epoch of a task does not fall
      (∀ row ∈ c.world.tasks, ∃ row' ∈ c'.world.tasks, row'.episodeId = row.episodeId ∧
        ∀ token, row.leaseEpoch = some token →
          ∃ epoch, row'.leaseEpoch = some epoch ∧ token ≤ epoch) ∧
      -- an older token than that of a claim changes nothing
      (∀ claim ∈ c.trace, ∀ episodeId token, claimOf claim = some (episodeId, token) →
        ∀ touch older, c'.trace = touch :: c.trace → touchOf touch = some (episodeId, older) →
        older < token → c'.world.tasks.find? episodeId = c.world.tasks.find? episodeId) ∧
      -- a gate is left through its approved receipt
      (∀ row ∈ c.world.tasks, row.status = .waiting → ∀ row' ∈ c'.world.tasks,
        row'.episodeId = row.episodeId → row'.status ≠ .waiting →
        ∃ pid hash now, row.gateHash = some hash ∧
          c'.trace = ⟨pid, .wake row.episodeId row.nextAction hash now, (1 : ℕ)⟩ :: c.trace ∧
          Approved pid row.episodeId row.nextAction hash c.trace) := by
  have sound := sound_of_reaches reaches
  have inv : QueueInv c.toShared := sound.inv
  refine ⟨?_, ?_, fun c' step => ⟨?_, ?_, ?_⟩⟩
  · intro row member
    obtain ⟨gate, acts⟩ := inv.gates row member
    rw [gate]
    exact ⟨fun waiting => ⟨waiting, acts waiting⟩, And.left⟩
  · intro later second middle first earlier split episodeId old token finished finished'
    have isOpen := finishesOpened_of_reaches reaches later second _ split episodeId token finished'
    exact claim_of_opened finished isOpen
  · intro row member
    rcases step_tasks sound step with same | ⟨pid, action, response, old, new, granted, change, before, after, -⟩
    · rw [same]
      exact ⟨row, member, rfl, fun token stored => ⟨token, stored, le_rfl⟩⟩
    · rw [after]
      by_cases changed : row.episodeId = new.episodeId
      · obtain rfl : old = some row :=
          before.symm.trans (find?_eq_some.mpr ⟨member, changed⟩)
        refine ⟨new, mem_put.mpr (.inl rfl), changed.symm, fun token stored => ?_⟩
        exact change.epoch_le granted member stored
      · exact ⟨row, mem_put.mpr (.inr ⟨member, changed⟩), rfl,
          fun token stored => ⟨token, stored, le_rfl⟩⟩
  · intro claim member episodeId token claimed touch older extended touched less
    rcases step_tasks sound step with same | ⟨pid, action, response, old, new, granted, change, before, after, extended'⟩
    · rw [same]
    · rw [after, find?_put]
      split_ifs with same
      · rw [extended] at extended'
        obtain ⟨rfl, -⟩ := cons.inj extended'
        obtain ⟨row, present, episode, epoch, stored, bound⟩ :=
          inv.claims claim member episodeId token claimed
        obtain rfl : old = some row :=
          before.symm.trans (find?_eq_some.mpr ⟨present, episode.trans same⟩)
        -- The row has an epoch of at least the claim's token, and the change asks for the older.
        have epochs := stored.symm.trans (change.touched touched).2
        have impossible : token ≤ older := some.inj epochs ▸ bound
        exact absurd less impossible.not_gt
      · rfl
  · intro row member waiting row' member' episode left
    rcases step_tasks sound step with same | ⟨pid, action, response, old, new, granted, change, before, after, extended⟩
    · rw [same] at member'
      cases eq_of_key member' member episode
      exact absurd waiting left
    · rw [after] at member'
      rcases mem_put.mp member' with rfl | ⟨other, -⟩
      · obtain rfl : old = some row :=
          before.symm.trans (find?_eq_some.mpr ⟨member, episode.symm⟩)
        obtain ⟨hash, now, gate, is⟩ := change.leaves waiting
        refine ⟨pid, hash, now, gate, by rw [extended, is], ?_⟩
        obtain ⟨-, same⟩ := (Event.mk.injEq ..).mp is
        obtain ⟨rfl, -⟩ := same
        exact granted
      · cases eq_of_key other member episode
        exact absurd waiting left

def inTurn (calls : List (Call × ℕ)) : List (ℕ × Oracle) :=
  (calls.zipIdx.map fun (call, pid) => replicate call.2 (pid, clockAt 1)).flatten

def sampleGateHash : String := String.ofList (replicate 64 'a')

def sampleOutcome (action : String) : Dict :=
  [("state", .str "READY"), ("next_action", .str action), ("gate_hash", .str sampleGateHash)]

def sampleCompletions (completed : List String) : List (Call × ℕ) :=
  [(.enqueue "EP000001" "root" "fixture", 7), (.acquire "EP000001" "w1:1" 0 30, 1)] ++
    completed.flatMap fun action =>
      [(.claim "EP000001" "w1" sampleLease (some 1), 7),
        (.complete "EP000001" "w1" sampleLease (sampleOutcome action) (some 2), 7)]

def afterCompletions (completed : List String) : Option (Config (machine (· + ·)) Error) :=
  after (· + ·) anyStep ((sampleCompletions completed).map Prod.fst)
    (inTurn (sampleCompletions completed))

theorem sample_waits_at_gate :
    ∃ c : Config (machine (· + ·)) Error, Reaches (callsIn Set.univ) anyStep (initial (new 0))
    c ∧ ∃ row ∈ c.world.tasks, row.status = .waiting ∧ row.gateHash.isSome = true ∧ human row.nextAction = true := by
  have passed : (afterCompletions ["HUMAN_VIDEO"]).any (fun c =>
      c.world.tasks.rows.any fun row => row.status = .waiting) = true := by
    decide +kernel
  obtain ⟨c, reached, holds⟩ := exists_reaches_of_after (fun _ _ => Set.mem_univ _) passed
  obtain ⟨row, member, waiting⟩ := any_eq_true.mp holds
  have waits := of_decide_eq_true waiting
  exact ⟨c, reached, row, member, waits, ((task_ownership reached).1 row member).1 waits⟩

theorem claim_finished_twice : ∃ c : Config (machine (· + ·)) Error,
      Reaches (callsIn Set.univ) anyStep (initial (new 0)) c ∧
      ∃ later claim earlier, c.trace = later ++ claim :: earlier ∧
        claimOf claim = some ("EP000001", 1) ∧
        (later.filter fun e => finishOf e = some ("EP000001", 1)).length = 2 := by
  have passed : (afterCompletions ["CONTINUE", "CONTINUE"]).any (fun c =>
      ((c.trace.drop 24).head?).any (fun claim => claimOf claim = some ("EP000001", 1)) &&
        decide (((c.trace.take 24).filter fun e => finishOf e = some ("EP000001", 1)).length = 2)) =
      true := by
    decide +kernel
  obtain ⟨c, reached, holds⟩ := exists_reaches_of_after (fun _ _ => Set.mem_univ _) passed
  simp only [Bool.and_eq_true, decide_eq_true_eq] at holds
  obtain ⟨claim, first, claims⟩ := (any_eq_true _ _).mp holds.1
  obtain ⟨earlier, split⟩ := head?_eq_some_iff.mp first
  refine ⟨c, reached, c.trace.take 24, claim, earlier, ?_, of_decide_eq_true claims, holds.2⟩
  rw [← split, take_append_drop]

end VideoPoster.Worker
