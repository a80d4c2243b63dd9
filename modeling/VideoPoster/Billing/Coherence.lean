import VideoPoster.Executor.RunConduct

/-!
# The snapshot file and the two stores

Three stores are written without a common transaction.
-/

namespace VideoPoster.Billing
open Python Tables Interleaving Executor Option List Snapshot

variable {D : Deployment} {scope : Scope} {s s' : Shared (machine D)} {pid : ℕ} {action : Act}
  {response : action.Res}

def published (trace : List (Event actions)) : List Snapshot :=
  trace.filterMap fun e => e.action.published

def IsCurrent (snapshot : Snapshot) : Prop := snapshot.status ≠ .writerInProgress

instance (snapshot : Snapshot) : Decidable (IsCurrent snapshot) := inferInstanceAs (Decidable (_ ≠ _))

/-- A marker exceeds every generation before it; a readback repeats the generation of the marker that
was written right before it. -/
def Ordered : List Snapshot → Prop
  | [] => True
  | snapshot :: earlier =>
    (if IsCurrent snapshot then
      ∃ marker rest, earlier = marker :: rest ∧ marker.status = .writerInProgress ∧
        marker.generation = snapshot.generation
    else ∀ other ∈ earlier, other.generation < snapshot.generation) ∧ Ordered earlier

structure FileInv (s : Shared (machine D)) : Prop where
  file : s.world.snapshot = (published s.trace).head?
  bounded : ∀ snapshot ∈ published s.trace, snapshot.generation ≤ s.world.generation
  ordered : Ordered (published s.trace)
  coherent : ∀ snapshot, s.world.snapshot = some snapshot → IsCurrent snapshot →
    Stored s snapshot.requestId snapshot.generation

theorem published_performs (performs : Performs pid action response s s') :
    published s'.trace = action.published.toList ++ published s.trace := by
  rw [performs_trace performs, published, filterMap_cons]
  cases action.published <;> rfl

theorem FileInv.performs_unpublished (granted : Granted D scope pid s action) (performs : Performs
    pid action response s s') (silent : action.published = none) (inv : FileInv s) : FileInv s' := by
  have same : s'.world.snapshot = s.world.snapshot := by
    rcases (performs_surroundings performs).snapshot with same | ⟨snapshot, rfl, -⟩
    · exact same
    · cases silent
  have history : published s'.trace = published s.trace := by
    rw [published_performs performs, silent]
    rfl
  have generation : s'.world.generation = s.world.generation :=
    congrArg (fun file => (file.map generation).getD 0) same
  refine ⟨by rw [same, history, inv.file], ?_, by rw [history]; exact inv.ordered, ?_⟩
  · rw [history, generation]
    exact inv.bounded
  · intro snapshot shown current
    rw [same] at shown
    refine (inv.coherent snapshot shown current).keep granted performs ?_
    rintro - generation ⟨-, marker, there, writing, -⟩
    obtain rfl := some.inj (shown.symm.trans there)
    exact current writing

theorem FileInv.performs_marker {snapshot : Snapshot} {response : Unit}
    (writing : snapshot.status = .writerInProgress) (next : snapshot.generation = s.world.generation + 1)
    (performs : Performs (M := machine D) pid (.publish snapshot) response s s') (inv : FileInv s) : FileInv s' := by
  have history : published s'.trace = snapshot :: published s.trace := published_performs performs
  have world := performs_publish performs
  have file : s'.world.snapshot = some snapshot := congrArg World.snapshot world
  have generation : s'.world.generation = snapshot.generation := by rw [world]; rfl
  have marker : ¬ IsCurrent snapshot := fun current => current writing
  refine ⟨by rw [file, history]; rfl, ?_, ?_, ?_⟩
  · rw [history, generation]
    intro other member
    rcases mem_cons.mp member with rfl | old
    · exact le_rfl
    · rw [next]
      exact (inv.bounded other old).trans (Nat.le_succ _)
  · rw [history, Ordered, if_neg marker]
    refine ⟨fun other old => ?_, inv.ordered⟩
    rw [next]
    exact Nat.lt_succ_of_le (inv.bounded other old)
  · intro shown same current
    obtain rfl := some.inj (file.symm.trans same)
    exact absurd current marker

theorem FileInv.performs_current {snapshot : Snapshot} {response : Unit} (current : IsCurrent snapshot)
    (writer : Writer s pid snapshot.generation) (stored : Stored s snapshot.requestId snapshot.generation)
    (performs : Performs (M := machine D) pid (.publish snapshot) response s s') (inv : FileInv s) : FileInv s' := by
  have history : published s'.trace = snapshot :: published s.trace := published_performs performs
  have world := performs_publish performs
  have file : s'.world.snapshot = some snapshot := congrArg World.snapshot world
  obtain ⟨-, marker, shown, writing, same⟩ := writer
  have before : s.world.generation = snapshot.generation := by
    rw [← same, World.generation, shown]
    rfl
  have generation : s'.world.generation = snapshot.generation := by rw [world]; rfl
  obtain ⟨rest, earlier⟩ := head?_eq_some_iff.mp (inv.file.symm.trans shown)
  refine ⟨by rw [file, history]; rfl, ?_, ?_, ?_⟩
  · rw [history, generation, ← before]
    intro other member
    rcases mem_cons.mp member with rfl | old
    · exact before.ge
    · exact inv.bounded other old
  · rw [history, Ordered, if_pos current]
    exact ⟨⟨marker, rest, earlier, writing, same⟩, inv.ordered⟩
  · intro shown' same' _
    obtain rfl := some.inj (file.symm.trans same')
    obtain ⟨row, claim, found, claimFound, coherent⟩ := stored
    refine ⟨row, claim, ?_, ?_, coherent⟩
    · rw [world]
      exact found
    · rw [world]
      exact claimFound

theorem FileInv.performs (granted : Granted D scope pid s action)
    (performs : Performs pid action response s s') (inv : FileInv s) : FileInv s' := by
  cases action with
  | publish snapshot =>
    change GrantedPublish D pid s snapshot at granted
    unfold GrantedPublish at granted
    split at granted
    · rename_i writing
      exact inv.performs_marker writing granted.2 performs
    · rename_i shown
      exact inv.performs_current (by rw [IsCurrent, shown]; nofun) granted.1 granted.2 performs
  | _ => exact inv.performs_unpublished granted performs rfl

variable {kinds : Set Call} {c : Config (machine D) Error}

/-- The file's generations and its coherence with both stores, in every run of any calls. -/
theorem snapshot_coherent (reaches : Reaches (callsIn D kinds) anyStep (freshRoot D) c) : Ordered (published c.trace)
    ∧ ∀ snapshot, c.world.snapshot = some snapshot → IsCurrent snapshot → ∃ row claim, c.world.jobs.find?
    snapshot.requestId = some row ∧ c.world.ledger.claims.find? snapshot.requestId = some claim ∧ row.generation = some
    snapshot.generation ∧ claim.generation = some snapshot.generation ∧ claim.provider = row.endpoint ∧ claim.authScope
    = row.settlementBinding.authScope ∧ claim.providerRequestId = row.settlementBinding.providerRequestId := by
  have inv : FileInv c.toShared := by
    refine Protocol.Sound.invariant (K := FileInv)
      (discipline_admits fun _ : ℕ => subset_refl kinds) sound_freshRoot ?_ ?_ ?_ reaches
    · intro pid action response s s' _ inv granted _ performs
      have granted : Granted D (fun _ => kinds) pid s action := granted
      exact inv.performs granted performs
    · rintro s dead - ⟨file, bounded, ordered, coherent⟩
      exact ⟨file, bounded, ordered, coherent⟩
    · refine ⟨rfl, by simp [published, freshRoot, Config.initial], trivial, ?_⟩
      intro snapshot shown
      cases shown
  refine ⟨inv.ordered, fun snapshot shown current => ?_⟩
  obtain ⟨row, claim, found, claimFound, rowPin, claimPin, -, -, -, -, provider, scope, providerId⟩ :=
    inv.coherent snapshot shown current
  exact ⟨row, claim, found, claimFound, rowPin, claimPin, provider, scope, providerId⟩

/-! ## One operation

Its marker and its readback carry the same generation. -/

def admissionTurn : Turn where
  call := .prepareAndReserve sampleCoordinator sampleFal "episode-1" false
  oracle := sampleOracle none (sampleProvider 1)
  steps := 16

theorem admission_repeats_generation :
    ∃ c, Reaches (callsIn (sampleDeployment 6) Set.univ) anyStep (freshRoot (sampleDeployment 6)) c ∧
      ¬ (published c.trace).Pairwise fun later earlier => earlier.generation < later.generation := by
  have passed : (after (sampleDeployment 6) anyStep (freshRoot _) [admissionTurn]).any
      (fun c => decide ((published c.trace).map generation = [1, 1])) = true := by
    decide +kernel
  obtain ⟨c, reached, generations⟩ :=
    exists_reaches_of_after _ anyStep Set.univ (fun _ _ => trivial) passed
  refine ⟨c, reached, fun increasing => ?_⟩
  have increasing : ((published c.trace).map generation).Pairwise fun a b => b < a :=
    pairwise_map.mpr increasing
  rw [of_decide_eq_true generations] at increasing
  simp at increasing

theorem admission_coherent : ∃ c, Reaches (callsIn (sampleDeployment 6) Set.univ) anyStep (freshRoot (sampleDeployment
    6)) c ∧ Ordered (published c.trace) ∧ ∃ snapshot, c.world.snapshot = some snapshot ∧ IsCurrent snapshot ∧
    ∃ row claim, c.world.jobs.find? snapshot.requestId = some row ∧ c.world.ledger.claims.find? snapshot.requestId =
    some claim ∧ row.generation = some snapshot.generation ∧ claim.generation = some snapshot.generation := by
  have passed : (after (sampleDeployment 6) anyStep (freshRoot _) [admissionTurn]).any
      (fun c => c.world.snapshot.any fun snapshot => decide (IsCurrent snapshot)) = true := by
    decide +kernel
  obtain ⟨c, reached, shows⟩ :=
    exists_reaches_of_after _ anyStep Set.univ (fun _ _ => trivial) passed
  obtain ⟨snapshot, shown, current⟩ := (any_eq_true _ _).mp shows
  have current := of_decide_eq_true current
  obtain ⟨ordered, coherent⟩ := snapshot_coherent reached
  obtain ⟨row, claim, found, claimFound, rowPin, claimPin, -⟩ := coherent snapshot shown current
  exact ⟨c, reached, ordered, snapshot, shown, current, row, claim, found, claimFound, rowPin, claimPin⟩

end VideoPoster.Billing
