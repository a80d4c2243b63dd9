import VideoPoster.Worker.Fencing

/-!
# What an action does to the task rows
-/

namespace VideoPoster.Worker
open Python Tables Interleaving Option Tasks World

def claimOf : Event actions → Option (String × ℤ)
  | ⟨_, .claim episodeId _ token _, .ok _⟩ => some (episodeId, token)
  | _ => none

def finishOf : Event actions → Option (String × ℤ)
  | ⟨_, .complete episodeId _ token _ _, .ok _⟩ => some (episodeId, token)
  | ⟨_, .unknown episodeId _ token _, .ok _⟩ => some (episodeId, token)
  | _ => none

def touchOf : Event actions → Option (String × ℤ)
  | ⟨_, .complete episodeId _ token _ _, _⟩ => some (episodeId, token)
  | ⟨_, .retry episodeId _ token _ _, _⟩ => some (episodeId, token)
  | ⟨_, .unknown episodeId _ token _, _⟩ => some (episodeId, token)
  | _ => none

inductive TaskStep (pid : ℕ) : Event actions → Option TaskRow → TaskRow → Prop
  | enqueued {episodeId root : String} {kind : TaskKind} {now : ℚ} :
      TaskStep pid ⟨pid, .enqueue episodeId root kind now, (.ok () : Result Unit)⟩ none
        (.new episodeId root kind now)
  | claimed {row : TaskRow} {workerId : String} {token : ℤ} {now : ℚ} : Tasks.Claimable row →
      TaskStep pid ⟨pid, .claim row.episodeId workerId token now, (.ok () : Result Unit)⟩ (some row)
        (row.claimed workerId token now)
  | completed {row : TaskRow} {workerId : String} {token : ℤ} {completion : Completion} {now : ℚ} :
      row.HeldBy workerId token →
      TaskStep pid
        ⟨pid, .complete row.episodeId workerId token completion now, (.ok () : Result Unit)⟩
        (some row) (row.completed completion now)
  | retried {row : TaskRow} {workerId : String} {token : ℤ} {action : String} {now : ℚ} :
      row.HeldBy workerId token →
      TaskStep pid ⟨pid, .retry row.episodeId workerId token action now, ()⟩ (some row)
        (row.retried action now)
  | quarantined {row : TaskRow} {workerId : String} {token : ℤ} {now : ℚ} :
      row.HeldBy workerId token →
      TaskStep pid ⟨pid, .unknown row.episodeId workerId token now, (.ok () : Result Unit)⟩
        (some row) (row.quarantined now)
  | woken {row : TaskRow} {hash : String} {now : ℚ} :
      row.status = .waiting → row.gateHash = some hash →
      TaskStep pid ⟨pid, .wake row.episodeId row.nextAction hash now, (1 : ℕ)⟩ (some row)
        (row.woken now)

variable {plus : ℚ → ℚ → ℚ} {oracle : Oracle} {pid : ℕ} {w w' : World}

namespace Tasks
variable {tasks changed : Tasks} {episodeId : String} {matching : TaskRow → Prop}
  [DecidablePred matching] {change : TaskRow → TaskRow}

theorem update_eq_some (updated : tasks.update episodeId matching change = some changed) : ∃ row,
    tasks.find? episodeId = some row ∧ row.episodeId = episodeId ∧ matching row ∧ changed = tasks.put (change row) := by
  unfold update at updated
  split at updated
  · rename_i row found
    split at updated
    · rename_i matches_
      cases updated
      exact ⟨row, found, (Table.find?_eq_some.mp found).2, matches_, rfl⟩
    · cases updated
  · cases updated

end Tasks

theorem exec_tasks {action : Act}
    {response : action.Res} (executed : exec plus oracle pid w action = some (w', response)) :
    (w'.tasks = w.tasks ∧ claimOf ⟨pid, action, response⟩ = none ∧ finishOf ⟨pid, action, response⟩ = none) ∨ ∃ old new,
    TaskStep pid ⟨pid, action, response⟩ old new ∧ w.tasks.find? new.episodeId = old ∧ w'.tasks = w.tasks.put new := by
  cases action with
  | enqueue episodeId root kind now =>
    simp only [exec, enqueue, some.injEq] at executed
    split at executed
    · split at executed <;> cases executed <;> exact .inl ⟨rfl, rfl, rfl⟩
    · rename_i absent
      cases executed
      exact .inr ⟨none, _, .enqueued, absent, rfl⟩
  | claim episodeId workerId token now =>
    simp only [exec, claim, some.injEq] at executed
    split at executed
    · rename_i updated
      cases executed
      obtain ⟨row, found, rfl, claimable, rfl⟩ := update_eq_some updated
      exact .inr ⟨some row, _, .claimed claimable, found, rfl⟩
    · cases executed
      exact .inl ⟨rfl, rfl, rfl⟩
  | complete episodeId workerId token completion now =>
    simp only [exec, complete, some.injEq] at executed
    split at executed
    · rename_i updated
      cases executed
      obtain ⟨row, found, rfl, held, rfl⟩ := update_eq_some updated
      exact .inr ⟨some row, _, .completed held, found, rfl⟩
    · cases executed
      exact .inl ⟨rfl, rfl, rfl⟩
  | retry episodeId workerId token action now =>
    simp only [exec, retry, some.injEq] at executed
    cases updated : w.tasks.update episodeId (·.HeldBy workerId token) (·.retried action now) with
    | none =>
      rw [updated] at executed
      cases executed
      exact .inl ⟨rfl, rfl, rfl⟩
    | some changed =>
      rw [updated] at executed
      cases executed
      obtain ⟨row, found, rfl, held, rfl⟩ := update_eq_some updated
      exact .inr ⟨some row, _, .retried held, found, rfl⟩
  | unknown episodeId workerId token now =>
    simp only [exec, unknown, some.injEq] at executed
    split at executed
    · rename_i updated
      cases executed
      obtain ⟨row, found, rfl, held, rfl⟩ := update_eq_some updated
      exact .inr ⟨some row, _, .quarantined held, found, rfl⟩
    · cases executed
      exact .inl ⟨rfl, rfl, rfl⟩
  | wake episodeId expected hash now =>
    simp only [exec, some.injEq] at executed
    unfold wake at executed
    split at executed
    · rename_i updated
      cases executed
      obtain ⟨row, found, rfl, ⟨waiting, rfl, gate⟩, rfl⟩ := update_eq_some updated
      exact .inr ⟨some row, _, .woken waiting gate, found, rfl⟩
    · cases executed
      exact .inl ⟨rfl, rfl, rfl⟩
  | uuid4 | lockWriter =>
    simp only [exec] at executed
    split at executed <;> cases executed
    exact .inl ⟨rfl, rfl, rfl⟩
  | acquire | renew =>
    simp only [exec, leased, some.injEq] at executed
    split at executed <;> cases executed <;> exact .inl ⟨rfl, rfl, rfl⟩
  | delete =>
    simp only [exec, released, some.injEq] at executed
    split at executed <;> cases executed <;> exact .inl ⟨rfl, rfl, rfl⟩
  | _ =>
    cases executed
    exact .inl ⟨rfl, rfl, rfl⟩

theorem exec_writer {action : Act}
    {response : action.Res} (executed : exec plus oracle pid w action = some (w', response)) : (action = .lockWriter ∧
    w.writer = none ∧ w'.writer = some pid) ∨ (action = .unlockWriter ∧ w'.writer = none) ∨ w'.writer = w.writer := by
  cases action with
  | lockWriter =>
    simp only [exec] at executed
    split at executed
    · rename_i free
      cases executed
      exact .inl ⟨rfl, free, rfl⟩
    · cases executed
  | unlockWriter =>
    cases executed
    exact .inr (.inl ⟨rfl, rfl⟩)
  | uuid4 =>
    simp only [exec] at executed
    split at executed <;> cases executed
    exact .inr (.inr rfl)
  | enqueue | claim | complete | unknown =>
    simp only [exec, commit, some.injEq] at executed
    split at executed <;> cases executed <;> exact .inr (.inr rfl)
  | acquire | renew =>
    simp only [exec, leased, some.injEq] at executed
    split at executed <;> cases executed <;> exact .inr (.inr rfl)
  | delete =>
    simp only [exec, released, some.injEq] at executed
    split at executed <;> cases executed <;> exact .inr (.inr rfl)
  | _ =>
    cases executed
    exact .inr (.inr rfl)

end VideoPoster.Worker
