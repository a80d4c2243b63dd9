import VideoPoster.Interleaving.RelyGuarantee
import VideoPoster.Worker.Steps

/-!
# The discipline of the queue's writers
-/

namespace VideoPoster.Worker
open Python Tables Interleaving Table List

variable {plus : ℚ → ℚ → ℚ}

def opened (episodeId : String) : List (Event actions) → Option ℤ
  | [] => none
  | e :: earlier =>
    match claimOf e, finishOf e with
    | some (claimed, token), _ => if claimed = episodeId then some token else opened episodeId earlier
    | none, some (finished, _) => if finished = episodeId then none else opened episodeId earlier
    | none, none => opened episodeId earlier

def TaskRow.Gated (row : TaskRow) : Prop :=
  (row.gateHash.isSome ↔ row.status = .waiting) ∧ (row.status = .waiting → human row.nextAction = true)

structure QueueInv (s : Shared (machine plus)) : Prop where
  fenced : s.world.store.Fenced
  epochs : ∀ row ∈ s.world.tasks, ∀ token, row.leaseEpoch = some token →
    token ≤ s.world.store.lastEpoch row.episodeId
  gates : ∀ row ∈ s.world.tasks, row.Gated
  claims : ∀ e ∈ s.trace, ∀ episodeId token, claimOf e = some (episodeId, token) →
    ∃ row ∈ s.world.tasks, row.episodeId = episodeId ∧
      ∃ epoch, row.leaseEpoch = some epoch ∧ token ≤ epoch
  running : ∀ row ∈ s.world.tasks, row.status = .running →
    opened row.episodeId s.trace = row.leaseEpoch

variable {row : TaskRow} {episodeId : String} {token : ℤ}

section TaskStep
variable {pid : ℕ} {e : Event actions} {old : Option TaskRow} {new : TaskRow}

theorem TaskStep.episode (step : TaskStep pid e (some row) new) : new.episodeId = row.episodeId := by
  cases step <;> rfl

section
variable (step : TaskStep pid e old new)
include step

theorem TaskStep.gated (gated : ∀ row ∈ old, row.Gated) : new.Gated := by
  cases step with
  | enqueued => simp [TaskRow.Gated, TaskRow.new]
  | @claimed row _ _ _ claimable =>
    have free : row.gateHash.isSome = false := by
      have gate := (gated row rfl).1
      rcases claimable with is | is <;> simpa [is] using gate
    simp [TaskRow.Gated, TaskRow.claimed, free]
  | @completed row _ _ completion _ _ =>
    exact ⟨completion.gated, completion.acts⟩
  | @retried row _ _ _ _ held =>
    have gate := (gated row rfl).1
    rw [held.1] at gate
    simpa [TaskRow.Gated, TaskRow.retried] using gate
  | @quarantined row _ _ _ held =>
    have gate := (gated row rfl).1
    rw [held.1] at gate
    simpa [TaskRow.Gated, TaskRow.quarantined] using gate
  | woken => simp [TaskRow.Gated, TaskRow.woken]

theorem TaskStep.epoch : (∃ token, claimOf e = some (new.episodeId, token)
    ∧ new.leaseEpoch = some token) ∨ claimOf e = none ∧ new.leaseEpoch = old.bind TaskRow.leaseEpoch := by
  cases step with
  | claimed => exact .inl ⟨_, rfl, rfl⟩
  | _ => exact .inr ⟨rfl, rfl⟩

theorem TaskStep.running (running : new.status = .running) :
    ∃ token, claimOf e = some (new.episodeId, token) ∧ new.leaseEpoch = some token := by
  cases step with
  | claimed => exact ⟨_, rfl, rfl⟩
  | @completed _ _ _ completion _ _ => exact absurd running completion.left.1
  | _ => cases running

theorem TaskStep.finished {episodeId : String} {token : ℤ} (finished : finishOf e = some (episodeId, token)) :
    new.episodeId = episodeId ∧ ∃ row, old = some row ∧ row.status = .running ∧ row.leaseEpoch = some token := by
  cases step with
  | completed held =>
    cases finished
    exact ⟨rfl, _, rfl, held.1, held.2.2⟩
  | quarantined held =>
    cases finished
    exact ⟨rfl, _, rfl, held.1, held.2.2⟩
  | _ => cases finished

end

theorem TaskStep.leaves (step : TaskStep pid e (some row) new) (waiting : row.status = .waiting) :
    ∃ hash now, row.gateHash = some hash ∧ e = ⟨pid, .wake row.episodeId row.nextAction hash now, (1 : ℕ)⟩ := by
  cases step with
  | claimed claimable => rcases claimable with is | is <;> cases waiting.symm.trans is
  | completed held | retried held | quarantined held => cases waiting.symm.trans held.1
  | woken _ gate => exact ⟨_, _, gate, rfl⟩

theorem TaskStep.touched (step : TaskStep pid e (some row) new) (touched : touchOf e = some (episodeId, token)) :
    row.episodeId = episodeId ∧ row.leaseEpoch = some token := by
  cases step with
  | completed held | retried held | quarantined held =>
    cases touched
    exact ⟨rfl, held.2.2⟩
  | _ => cases touched

end TaskStep

def Approved (pid : ℕ) (episodeId expected hash : String) (trace : List (Event actions)) : Prop :=
  ∃ root gate files, (⟨pid, .runnerFiles episodeId root gate, files⟩ : Event actions) ∈ trace ∧
    files.approvedHash = .ok hash ∧ Program.expectedAction gate = some expected

section Assertions
variable (s : Shared (machine plus))

def Held (pid : ℕ) : Prop := s.world.writer = some pid

def Ready (episodeId : String) (token : ℤ) : Prop :=
  token ≤ s.world.store.lastEpoch episodeId ∧
    ∀ row ∈ s.world.tasks, row.episodeId = episodeId → ∀ epoch, row.leaseEpoch = some epoch →
      epoch ≤ token

end Assertions

def Granted (pid : ℕ) (s : Shared (machine plus)) : Act → Prop
  | .claim episodeId _ token _ => Held s pid ∧ Ready s episodeId token
  | .wake episodeId expected hash _ => Approved pid episodeId expected hash s.trace
  | .unlockWriter => Held s pid
  | _ => True

section Step
variable {pid : ℕ} {action : Act} {response : action.Res} {s s' : Shared (machine plus)}

theorem opened_cons_of_other {e : Event actions} {trace : List (Event actions)}
    (claim : ∀ other token, claimOf e = some (other, token) → other ≠ episodeId) (finish : ∀ other token,
    finishOf e = some (other, token) → other ≠ episodeId) : opened episodeId (e :: trace) = opened episodeId trace := by
  rw [opened]
  split
  · rename_i claimed
    exact if_neg (claim _ _ claimed)
  · rename_i finished
    exact if_neg (finish _ _ finished)
  · rfl

theorem opened_cons_of_claim {e : Event actions} {trace : List (Event actions)}
    (claim : claimOf e = some (episodeId, token)) : opened episodeId (e :: trace) = some token := by
  simp [opened, claim]

theorem Granted.claimed (granted : Granted pid s action) {episodeId : String} {token : ℤ}
    (claimed : claimOf ⟨pid, action, response⟩ = some (episodeId, token)) : Held s pid ∧ Ready s episodeId token := by
  unfold claimOf at claimed
  split at claimed
  · rename_i same
    cases same
    cases claimed
    exact granted
  · cases claimed

theorem TaskStep.epoch_le {new : TaskRow} (step : TaskStep pid ⟨pid, action, response⟩ (some row) new)
    (granted : Granted pid s action) (member : row ∈ s.world.tasks)
    (stored : row.leaseEpoch = some token) : ∃ epoch, new.leaseEpoch = some epoch ∧ token ≤ epoch := by
  rcases step.epoch with ⟨claimed, claim, epoch⟩ | ⟨-, epoch⟩
  · obtain ⟨-, -, bound⟩ := granted.claimed claim
    exact ⟨claimed, epoch, bound row member step.episode.symm token stored⟩
  · exact ⟨token, epoch.trans stored, le_rfl⟩

theorem QueueInv.step (inv : QueueInv s) (granted : Granted pid s action)
    (performs : Performs pid action response s s') : QueueInv s' := by
  obtain ⟨oracle, executed, extended⟩ := performs
  have change := exec_change executed
  have fenced := inv.fenced.change change
  rcases exec_tasks executed with ⟨same, noClaim, noFinish⟩ | ⟨old, new, step, before, after⟩
  · refine ⟨fenced, ?_, ?_, ?_, ?_⟩ <;> rw [same]
    · intro row member token stored
      exact (inv.epochs row member token stored).trans (change.lastEpoch_le _)
    · exact inv.gates
    · intro e member episodeId token claimed
      rw [extended, mem_cons] at member
      rcases member with rfl | earlier
      · rw [noClaim] at claimed
        cases claimed
      · exact inv.claims e earlier episodeId token claimed
    · intro row member running
      rw [extended, opened_cons_of_other (by simp [noClaim]) (by simp [noFinish])]
      exact inv.running row member running
  · have known : ∀ row, old = some row → row ∈ s.world.tasks ∧ new.episodeId = row.episodeId := by
      intro row is
      subst is
      exact ⟨(find?_eq_some.mp before).1, step.episode⟩
    refine ⟨fenced, ?_, ?_, ?_, ?_⟩ <;> rw [after]
    · intro row member token stored
      rcases mem_put.mp member with rfl | ⟨other, -⟩
      · rcases step.epoch with ⟨claimed, claim, epoch⟩ | ⟨-, epoch⟩
        · obtain ⟨-, bound, -⟩ := granted.claimed claim
          rw [epoch] at stored
          cases stored
          exact bound.trans (change.lastEpoch_le _)
        · obtain ⟨row', is, stored'⟩ := Option.bind_eq_some_iff.mp (epoch.symm.trans stored)
          obtain ⟨member', episode⟩ := known row' is
          rw [episode]
          exact (inv.epochs row' member' token stored').trans (change.lastEpoch_le _)
      · exact (inv.epochs row other token stored).trans (change.lastEpoch_le _)
    · intro row member
      rcases mem_put.mp member with rfl | ⟨other, -⟩
      · exact step.gated fun row is => inv.gates row (known row is).1
      · exact inv.gates row other
    · intro e member episodeId token claimed
      rw [extended, mem_cons] at member
      rcases member with rfl | earlier
      · rcases step.epoch with ⟨_, claim, epoch⟩ | ⟨none, -⟩
        · rw [claimed] at claim
          cases claim
          exact ⟨new, mem_put.mpr (.inl rfl), rfl, token, epoch, le_rfl⟩
        · rw [claimed] at none
          cases none
      · obtain ⟨row, present, episode, epoch, stored, bound⟩ :=
          inv.claims e earlier episodeId token claimed
        by_cases changed : row.episodeId = new.episodeId
        · have is : old = some row :=
            before.symm.trans (find?_eq_some.mpr ⟨present, changed⟩)
          subst is
          obtain ⟨epoch', stored', grown⟩ := step.epoch_le granted present stored
          exact ⟨new, mem_put.mpr (.inl rfl), changed.symm.trans episode, epoch', stored', bound.trans grown⟩
        · exact ⟨row, mem_put.mpr (.inr ⟨present, changed⟩), episode, epoch, stored, bound⟩
    · intro row member running
      rw [extended]
      rcases mem_put.mp member with rfl | ⟨other, distinct⟩
      · obtain ⟨token, claim, epoch⟩ := step.running running
        rw [opened_cons_of_claim claim, epoch]
      · rw [opened_cons_of_other]
        · exact inv.running row other running
        · intro episodeId token claimed
          rcases step.epoch with ⟨_, claim, -⟩ | ⟨none, -⟩
          · rw [claimed] at claim
            cases claim
            exact distinct.symm
          · rw [claimed] at none
            cases none
        · intro episodeId token finished
          rw [← (step.finished finished).1]
          exact distinct.symm

end Step

theorem QueueInv.initial (start : ℚ) : QueueInv (⟨World.new start, []⟩ : Shared (machine plus)) := by
  have none : ∀ row : TaskRow, row ∉ (World.new start).tasks := fun row member =>
    not_mem_nil member
  refine ⟨.empty, ?_, ?_, ?_, ?_⟩
  · exact fun row member => absurd member (none row)
  · exact fun row member => absurd member (none row)
  · exact fun e member => absurd member not_mem_nil
  · exact fun row member => absurd member (none row)

theorem QueueInv.crash {s : Shared (machine plus)} (pid : ℕ) (inv : QueueInv s) : QueueInv (s.crash pid) :=
  ⟨inv.fenced, inv.epochs, inv.gates, inv.claims, inv.running⟩

def discipline (plus : ℚ → ℚ → ℚ) : Protocol (machine plus) where
  inv := QueueInv
  grants := Granted
  preserves inv granted performs := inv.step granted performs
  survives := QueueInv.crash

end VideoPoster.Worker
