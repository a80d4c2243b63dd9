import VideoPoster.Revision.Lineage

/-!
# Rejections
-/

namespace VideoPoster.Revision
open Python Tables Paths Registry Table Option

variable {artifacts after : Registry} {reason artifactId : String}

def swept (artifacts : Registry) (reason : String) (stack : List String) (receipt : Receipt) : Receipt :=
  if receipt.status = .active ∧ receipt.artifactId ∉ sweep artifacts.dependents artifacts.active stack then
    receipt.rejected reason
  else receipt

theorem swept_artifactId (stack : List String) (receipt : Receipt) :
    (swept artifacts reason stack receipt).artifactId = receipt.artifactId := by
  unfold swept
  split_ifs <;> rfl

theorem active_iff {receipt : Receipt} (member : receipt ∈ artifacts) :
    receipt.artifactId ∈ artifacts.active ↔ receipt.status = .active := by
  rw [mem_active]
  constructor
  · rintro ⟨other, there, same, status⟩
    rwa [← eq_of_key there member same]
  · exact fun status => ⟨receipt, member, rfl, status⟩

theorem swept_of_superseded {stack : List String} {receipt : Receipt} (status : receipt.status ≠ .active) :
    swept artifacts reason stack receipt = receipt := if_neg fun both => status both.1

theorem sweep_superseded {current : String} {pending : List String} {receipt : Receipt} (found :
    artifacts.find? current = some receipt) (superseded : receipt.status = .superseded) : sweep artifacts.dependents
    artifacts.active (current :: pending) = sweep artifacts.dependents artifacts.active pending := by
  obtain ⟨member, rfl⟩ := find?_eq_some.mp found
  rw [sweep, if_neg]
  rw [active_iff member, superseded]
  decide

theorem sweep_active {current : String} {pending : List String}
    (active : current ∈ artifacts.active) : sweep artifacts.dependents artifacts.active (current :: pending)
    = sweep (artifacts.rejectOne reason current).dependents (artifacts.rejectOne reason current).active
    ((artifacts.rejectOne reason current).dependents current ++ pending) := by
  rw [sweep, if_pos active, dependents_rejectOne, active_rejectOne]

theorem drain_rows (stack : List String) (known : ∀ node ∈ stack, artifacts.find? node ≠ none) : ∃ after,
    artifacts.drain reason stack = .ok after ∧ after.rows = artifacts.rows.map (swept artifacts reason stack) := by
  fun_induction drain reason artifacts stack with
  | case1 artifacts =>
    refine ⟨artifacts, rfl, ?_⟩
    conv_lhs => rw [← List.map_id artifacts.rows]
    refine List.map_congr_left fun receipt member => (if_neg ?_).symm
    rintro ⟨status, absent⟩
    rw [sweep] at absent
    exact absent ((active_iff member).mpr status)
  | case2 artifacts current pending absent => exact absurd absent (known current (.head _))
  | case3 artifacts current pending receipt found superseded ih =>
    obtain ⟨after, drained, rows⟩ := ih fun node member => known node (.tail _ member)
    refine ⟨after, drained, rows.trans (List.map_congr_left fun other _ => ?_)⟩
    unfold swept
    rw [sweep_superseded found superseded]
  | case4 artifacts current pending receipt found active ih =>
    have known' : ∀ node ∈ (artifacts.rejectOne reason current).dependents current ++ pending,
        (artifacts.rejectOne reason current).find? node ≠ none := by
      intro node member
      rw [rejectOne, find?_map]
      rw [dependents_rejectOne] at member
      rcases List.mem_append.mp member with dependent | later
      · obtain ⟨other, there, rfl, -⟩ := mem_dependents.1 dependent
        simp [find?_of_mem there]
      · simpa using known node (.tail _ later)
    obtain ⟨after, drained, rows⟩ := ih known'
    obtain ⟨inside, rfl⟩ := find?_eq_some.mp found
    have isActive : receipt.artifactId ∈ artifacts.active := by
      rw [active_iff inside]
      cases status : receipt.status with
      | active => rfl
      | superseded => exact absurd status active
    have same := @sweep_active artifacts reason receipt.artifactId pending isActive
    refine ⟨after, drained, rows.trans ?_⟩
    rw [rejectOne, map, List.map_map]
    refine List.map_congr_left fun other member => ?_
    rw [Function.comp_apply]
    by_cases hit : other.artifactId = receipt.artifactId
    · obtain rfl := eq_of_key member inside hit
      have first : other.rejectedAs reason other.artifactId = other.rejected reason := if_pos rfl
      rw [first, swept_of_superseded (show ArtifactStatus.superseded ≠ .active by decide)]
      refine (if_pos ⟨(active_iff member).mp isActive, ?_⟩).symm
      exact not_mem_sweep_of_stack (.head _)
    · have left : other.rejectedAs reason receipt.artifactId = other := if_neg hit
      rw [left]
      unfold swept
      rw [same]
      rfl

variable {receipt : Receipt}

theorem Registry.Linked.ancestor (linked : artifacts.Linked) (known : artifacts.Known) {node other : String}
    (way : Relation.ReflTransGen artifacts.DependsOn node other) (active : node ∈ artifacts.active) :
    other ∈ artifacts.active := by
  induction way with
  | refl => exact active
  | tail _ edge ih =>
    obtain ⟨child, member, rfl, depends⟩ := edge
    obtain ⟨parent, inside, rfl⟩ := exists_of_find?_ne_none (known.dependency child member _ depends)
    rw [active_iff inside]
    exact linked.active child member ((active_iff member).mp ih) _ depends parent (find?_of_mem inside)

theorem through_iff (known : artifacts.Known) (linked : artifacts.Linked) {node : String} :
    artifactId ∈ artifacts.active ∧ Through artifacts.dependents artifacts.active artifactId node ↔
      node ∈ artifacts.active ∧ Relation.ReflTransGen artifacts.DependsOn node artifactId := by
  constructor
  · rintro ⟨active, way⟩
    induction way with
    | refl => exact ⟨active, .refl⟩
    | tail _ step ih =>
      obtain ⟨receipt, member, rfl, depends⟩ := mem_dependents.1 step.1
      exact ⟨step.2, .head ⟨receipt, member, rfl, depends⟩ ih.2⟩
  · rintro ⟨active, way⟩
    induction way using Relation.ReflTransGen.head_induction_on with
    | refl => exact ⟨active, .refl⟩
    | @head node other edge rest ih =>
      obtain ⟨first, way⟩ := ih (linked.ancestor known (.single edge) active)
      obtain ⟨receipt, member, rfl, depends⟩ := edge
      exact ⟨first, way.tail ⟨mem_dependents.2 ⟨receipt, member, rfl, depends⟩, active⟩⟩

theorem falls_iff (known : artifacts.Known)
    (linked : artifacts.Linked) (member : receipt ∈ artifacts) : artifacts.Falls artifactId receipt ↔
    receipt.status = .active ∧ receipt.artifactId ∉ sweep artifacts.dependents artifacts.active [artifactId] := by
  have swept := @not_mem_sweep_iff _ _ artifacts.dependents artifacts.active [artifactId] receipt.artifactId
  simp only [List.mem_singleton, exists_eq_left] at swept
  rw [Registry.Falls, ← active_iff member, swept, through_iff known linked]

theorem reject_rows (accepted : artifacts.reject artifactId reason = .ok after) :
    after.rows = artifacts.rows.map (swept artifacts reason [artifactId]) := by
  simp only [reject, bind_eq_ok, require_eq_ok, exists_const] at accepted
  obtain ⟨-, there, drained⟩ := accepted
  obtain ⟨after', drained', rows⟩ := @drain_rows artifacts reason [artifactId] (by simpa using there)
  cases drained.symm.trans drained'
  exact rows

theorem swept_fields (stack : List String) (receipt : Receipt) : (swept artifacts reason stack receipt).dependsOn =
    receipt.dependsOn ∧ (swept artifacts reason stack receipt).supersedes =
    receipt.supersedes ∧ (swept artifacts reason stack receipt).supersededBy = receipt.supersededBy := by
  unfold swept
  split_ifs <;> exact ⟨rfl, rfl, rfl⟩

section
variable (accepted : artifacts.reject artifactId reason = .ok after)
include accepted

theorem reject_mem (other : Receipt) :
    other ∈ after ↔ ∃ old ∈ artifacts, swept artifacts reason [artifactId] old = other := by
  show other ∈ after.rows ↔ _
  rw [reject_rows accepted]
  exact List.mem_map

theorem reject_dependsOn : after.DependsOn = artifacts.DependsOn := by
  funext node dependency
  refine propext ⟨?_, ?_⟩
  · rintro ⟨other, member, rfl, depends⟩
    obtain ⟨old, there, rfl⟩ := (reject_mem accepted other).mp member
    rw [(swept_fields _ old).1] at depends
    exact ⟨old, there, (swept_artifactId _ old).symm, depends⟩
  · rintro ⟨old, there, rfl, depends⟩
    refine ⟨_, (reject_mem accepted _).mpr ⟨old, there, rfl⟩, swept_artifactId _ old, ?_⟩
    rwa [(swept_fields _ old).1]

theorem reject_find? (other : String) :
    after.find? other = (artifacts.find? other).map (swept artifacts reason [artifactId]) := by
  rw [← find?_map artifacts (swept_artifactId [artifactId])]
  unfold find?
  rw [reject_rows accepted]
  rfl

end

theorem Registry.Known.reject (known : artifacts.Known)
    (accepted : artifacts.reject artifactId reason = .ok after) : after.Known where
  named other member := by
    obtain ⟨old, there, rfl⟩ := (reject_mem accepted other).mp member
    rw [swept_artifactId]
    exact known.named old there
  dependency other member dependency depends := by
    obtain ⟨old, there, rfl⟩ := (reject_mem accepted other).mp member
    rw [(swept_fields _ old).1] at depends
    rw [reject_find? accepted, ne_eq, map_eq_none_iff]
    exact known.dependency old there dependency depends
  prior other member prior replaces nonempty := by
    obtain ⟨old, there, rfl⟩ := (reject_mem accepted other).mp member
    rw [(swept_fields _ old).2.1] at replaces
    rw [reject_find? accepted, ne_eq, map_eq_none_iff]
    exact known.prior old there prior replaces nonempty
  acyclic := by
    rw [reject_dependsOn accepted]
    exact known.acyclic

theorem Registry.Linked.reject (linked : artifacts.Linked)
    (accepted : artifacts.reject artifactId reason = .ok after) : after.Linked where
  active other member active dependency depends found there := by
    -- a dependency that falls takes its active dependents with it
    obtain ⟨child, inside, rfl⟩ := (reject_mem accepted other).mp member
    rw [(swept_fields _ child).1] at depends
    rw [mem_def, reject_find? accepted, map_eq_some_iff] at there
    obtain ⟨parent, known, rfl⟩ := there
    obtain ⟨inside', rfl⟩ := find?_eq_some.mp known
    have stays : ¬ (child.status = .active ∧
        child.artifactId ∉ sweep artifacts.dependents artifacts.active [artifactId]) := by
      intro falls
      rw [swept, if_pos falls] at active
      cases active
    have childActive : child.status = .active := by rwa [swept, if_neg stays] at active
    have parentActive := linked.active child inside childActive _ depends parent (find?_of_mem inside')
    rw [swept, if_neg]
    · exact parentActive
    · rintro ⟨-, falls⟩
      refine stays ⟨childActive, not_mem_sweep_of_next ((active_iff inside').mpr parentActive) falls ?_⟩
      exact mem_dependents.2 ⟨child, inside, rfl, depends⟩
  single prior priorMember left leftMember right rightMember replacesLeft replacesRight := by
    obtain ⟨oldPrior, insidePrior, rfl⟩ := (reject_mem accepted prior).mp priorMember
    obtain ⟨oldLeft, insideLeft, rfl⟩ := (reject_mem accepted left).mp leftMember
    obtain ⟨oldRight, insideRight, rfl⟩ := (reject_mem accepted right).mp rightMember
    rw [swept_artifactId] at replacesLeft replacesRight
    rw [(swept_fields _ _).2.1] at replacesLeft replacesRight
    rw [linked.single oldPrior insidePrior oldLeft insideLeft oldRight insideRight replacesLeft replacesRight]
  named prior priorMember successor := by
    obtain ⟨old, inside, rfl⟩ := (reject_mem accepted prior).mp priorMember
    rw [(swept_fields _ old).2.2, linked.named old inside, swept_artifactId]
    constructor
    · rintro ⟨child, there, same, replaces⟩
      refine ⟨_, (reject_mem accepted _).mpr ⟨child, there, rfl⟩, (swept_artifactId _ child).trans same, ?_⟩
      rw [(swept_fields _ child).2.1, replaces]
    · rintro ⟨child, there, same, replaces⟩
      obtain ⟨oldChild, insideChild, rfl⟩ := (reject_mem accepted child).mp there
      rw [swept_artifactId] at same
      rw [(swept_fields _ _).2.1] at replaces
      exact ⟨oldChild, insideChild, same, replaces⟩

theorem Registry.Linked.rejects (known : artifacts.Known)
    (linked : artifacts.Linked) (member : receipt ∈ artifacts) (given : blank reason = false) : ∃ after,
    artifacts.reject receipt.artifactId reason = .ok after ∧ artifacts.RejectedTo receipt.artifactId reason after := by
  have there : artifacts.find? receipt.artifactId ≠ none := by simp [find?_of_mem member]
  obtain ⟨after, drained, rows⟩ := @drain_rows artifacts reason [receipt.artifactId] (by simpa using there)
  have accepted : artifacts.reject receipt.artifactId reason = .ok after := by
    simp [Registry.reject, given, there, drained, require, bind, Except.bind]
  have same : after = artifacts.map (swept artifacts reason [receipt.artifactId]) (swept_artifactId _) := by
    obtain ⟨_, unique⟩ := after
    cases rows
    rfl
  have found (other : Receipt) (inside : other ∈ artifacts) : after.find? other.artifactId =
      some (swept artifacts reason [receipt.artifactId] other) := by
    rw [same, find?_map, find?_of_mem inside]
    rfl
  refine ⟨after, accepted, fun other => ?_, fun other inside falls => ?_, fun other inside stays => ?_⟩
  · rw [same, find?_map, map_eq_none_iff]
  · rw [found other inside]
    exact congrArg some (if_pos ((falls_iff known linked inside).mp falls))
  · rw [found other inside]
    exact congrArg some (if_neg fun both => stays ((falls_iff known linked inside).mpr both))

variable {call : Call} {calls : List Call}

theorem Registry.Known.closed (known : artifacts.Known) (linked : artifacts.Linked) : artifacts.Closed where
  active receipt member active other inside way := by
    rw [← active_iff inside]
    exact linked.ancestor known way.to_reflTransGen ((active_iff member).mpr active)
  acyclic := known.acyclic
  single := linked.single
  named := linked.named
  rejects receipt member _ _ given := linked.rejects known member given

theorem step_cases (artifacts : Registry) (call : Call) :
    (∃ after, call.apply artifacts = .ok after ∧ step artifacts call = after) ∨ step artifacts call = artifacts := by
  unfold step
  cases call.apply artifacts with
  | ok after => exact .inl ⟨after, rfl, rfl⟩
  | error error => exact .inr rfl

theorem Registry.Known.step (known : artifacts.Known) (call : Call) : (Revision.step artifacts call).Known := by
  rcases step_cases artifacts call with ⟨after, accepted, same⟩ | same
  · rw [same]
    cases call with
    | register request =>
      obtain ⟨receipt, registered⟩ := registered_of_ok known accepted
      exact registered.known known
    | reject artifactId reason => exact known.reject accepted
  · rwa [same]

theorem Registry.Linked.step (known : artifacts.Known) (linked : artifacts.Linked) (careful : call.Careful artifacts) :
    (Revision.step artifacts call).Linked := by
  rcases step_cases artifacts call with ⟨after, accepted, same⟩ | same
  · rw [same]
    cases call with
    | register request =>
      obtain ⟨receipt, registered⟩ := registered_of_ok known accepted
      obtain ⟨active, unreplaced⟩ := (registered.careful_iff accepted).mp careful
      exact registered.linked known linked active unreplaced
    | reject artifactId reason => exact linked.reject accepted
  · rwa [same]

theorem run_concat (calls : List Call) (call : Call) : run (calls ++ [call]) = step (run calls) call := by
  simp [run, List.foldl_append]

theorem known_run (calls : List Call) : (run calls).Known := by
  induction calls using List.reverseRecOn with
  | nil =>
    have none (receipt : Receipt) : receipt ∉ run [] := List.not_mem_nil
    refine ⟨fun _ member => absurd member (none _), fun _ member => absurd member (none _),
      fun _ member => absurd member (none _), fun _ way => ?_⟩
    obtain ⟨_, ⟨receipt, member, -⟩, -⟩ := Relation.TransGen.head'_iff.mp way
    exact none receipt member
  | append_singleton calls call ih =>
    rw [run_concat]
    exact ih.step call

theorem linked_run (careful : ∀ before call, before ++ [call] <+: calls → call.Careful (run before)) :
    (run calls).Linked := by
  induction calls using List.reverseRecOn with
  | nil =>
    have none (receipt : Receipt) : receipt ∉ run [] := List.not_mem_nil
    exact ⟨fun _ member => absurd member (none _), fun _ member => absurd member (none _),
      fun _ member => absurd member (none _)⟩
  | append_singleton calls call ih =>
    rw [run_concat]
    exact (ih fun before other part => careful before other (part.trans (List.prefix_append _ _))).step
      (known_run calls) (careful calls call List.prefix_rfl)

theorem careful_of_closed (known : artifacts.Known) (before : artifacts.Closed)
    (closed : (step artifacts call).Closed) : call.Careful artifacts := by
  cases call with
  | reject artifactId reason => trivial
  | register request =>
    intro after accepted
    obtain ⟨receipt, registered⟩ := registered_of_ok known accepted
    have same : step artifacts (.register request) = after := by
      show ((artifacts.register request).toOption).getD artifacts = after
      rw [accepted]
      rfl
    rw [same] at closed
    have member : receipt ∈ after := (registered.mem receipt).mpr (.inl rfl)
    rw [← registered.dependsOn, ← registered.supersedes]
    constructor
    · intro dependency depends old found
      obtain ⟨inside, rfl⟩ := find?_eq_some.mp found
      have active := closed.active receipt member registered.active _ ((registered.mem _).mpr (.inr ⟨old, inside, rfl⟩))
        (.single ⟨receipt, member, rfl, by rwa [old.supersededAs_artifactId]⟩)
      rwa [(old.supersededAs_fields _ _).2.1] at active
    · intro prior replaces old found
      obtain ⟨inside, rfl⟩ := find?_eq_some.mp found
      by_contra replaced
      obtain ⟨successor, replaced⟩ := ne_none_iff_exists'.mp replaced
      obtain ⟨first, there, -, replaces'⟩ := (before.named old inside successor).mp replaced
      have single := closed.single _ ((registered.mem _).mpr (.inr ⟨old, inside, rfl⟩)) receipt member _
        ((registered.mem _).mpr (.inr ⟨first, there, rfl⟩))
        (by rw [old.supersededAs_artifactId]; exact replaces)
        (by rw [old.supersededAs_artifactId, (first.supersededAs_fields _ _).2.2]; exact replaces')
      have late := registered.fresh
      rw [single, first.supersededAs_artifactId, find?_of_mem there] at late
      cases late

/-- Supersession is closed under dependency throughout a run, exactly if every registration of the run depends on
active artifacts and replaces what has no successor yet. -/
theorem closed_run_iff (calls : List Call) : (∀ before, before <+: calls → (run before).Closed) ↔
      ∀ before call, before ++ [call] <+: calls → call.Careful (run before) := by
  constructor
  · intro closed before call part
    refine careful_of_closed (known_run before) (closed before ((List.prefix_append _ _).trans part)) ?_
    rw [← run_concat]
    exact closed _ part
  · intro careful before part
    exact (known_run before).closed (linked_run fun earlier call inside => careful earlier call (inside.trans part))

def sampleCalls : List Call :=
  [.register ⟨"video-v1", some ("/final.mp4", "v1"), 1, [], none⟩, .reject "video-v1" "again",
    .register ⟨"gate-v1", some ("/gate.json", "g1"), 1, ["video-v1"], none⟩]

def sampleVideo : Receipt :=
  ⟨"video-v1", "/final.mp4", "v1", 1, [], .active, none, none, none⟩

def sampleGate : Receipt :=
  ⟨"gate-v1", "/gate.json", "g1", 1, ["video-v1"], .active, none, none, none⟩

def sampleRegistry : Registry := put .empty sampleVideo

theorem reject_sampleVideo : sampleRegistry.reject "video-v1" "again" =
    .ok (put .empty (sampleVideo.rejected "again")) := by
  have drained : sampleRegistry.drain "again" ["video-v1"] = .ok (put .empty (sampleVideo.rejected "again")) := by
    rw [drain]
    split
    · rename_i absent
      cases absent
    · rename_i receipt found
      cases found
      rw [if_neg (by decide)]
      exact drain.eq_1 _ _
  exact drained

theorem run_sampleCalls : (run sampleCalls).rows = [sampleGate, sampleVideo.rejected "again"] := by
  have second : run (sampleCalls.take 2) = put .empty (sampleVideo.rejected "again") := by
    show (sampleRegistry.reject "video-v1" "again").toOption.getD _ = _
    rw [reject_sampleVideo]
    rfl
  show (step (run (sampleCalls.take 2)) (.register _)).rows = _
  rw [second]
  rfl

/-- An active gate depends on a superseded video. -/
theorem gate_on_rejected_video : ¬ (run sampleCalls).Closed := by
  intro closed
  have gate : sampleGate ∈ run sampleCalls := by
    show _ ∈ (run sampleCalls).rows
    simp [run_sampleCalls]
  have video : sampleVideo.rejected "again" ∈ run sampleCalls := by
    show _ ∈ (run sampleCalls).rows
    simp [run_sampleCalls]
  have active := closed.active sampleGate gate rfl _ video (.single ⟨sampleGate, gate, rfl, by decide⟩)
  cases active

end VideoPoster.Revision
