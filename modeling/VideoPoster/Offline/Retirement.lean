import Mathlib.Data.List.Induction
import VideoPoster.Offline.Gate

/-!
# Retired pairs
-/

namespace VideoPoster.Offline
open Python Option List

section History
variable (digest : Body → String → String)

def rejected (store : Store) : Call → Option Pair
  | .decide call =>
    match (decide digest store call).2, call.approved with
    | .ok _, .bool false => store.readState.active
    | _, _ => none
  | _ => none

def performAll (store : Store) (calls : List Call) : Store :=
  calls.foldl (fun store call => (perform digest store call).1) store

def rejections (store : Store) : List Call → List Pair
  | [] => []
  | call :: calls =>
    (rejected digest store call).toList ++ rejections (perform digest store call).1 calls

end History

variable {digest : Body → String → String} {store : Store}

theorem rejections_concat (calls : List Call) (call : Call) : rejections digest store (calls ++ [call])
    = rejections digest store calls ++ (rejected digest (performAll digest store calls) call).toList := by
  induction calls generalizing store with
  | nil => simp [rejections, performAll]
  | cons first calls ih =>
    change (rejected digest store first).toList ++ rejections digest _ (calls ++ [call]) = _
    rw [ih, ← append_assoc]
    rfl

theorem performAll_concat (calls : List Call) (call : Call) : performAll digest store (calls ++ [call]) =
      (perform digest (performAll digest store calls) call).1 := by
  simp [performAll]

variable {α : Type} {run : Store → Result (Store × α)}

theorem transaction_eq_ok {value : α}
    (ok : (store.transaction run).2 = .ok value) : run store = .ok ((store.transaction run).1, value) := by
  unfold Store.transaction at ok ⊢
  cases ran : run store with
  | error error =>
    rw [ran] at ok
    cases ok
  | ok pair =>
    rw [ran] at ok
    cases ok
    rfl

theorem transaction_error {error : Error}
    (failed : (store.transaction run).2 = .error error) : (store.transaction run).1 = store := by
  unfold Store.transaction at failed ⊢
  cases ran : run store with
  | error error => rfl
  | ok pair =>
    rw [ran] at failed
    cases failed

theorem approvePlan_readState (call : ApprovePlan) : (approvePlan digest store call).1.readState = store.readState := by
  unfold approvePlan
  simp only
  split
  · rfl
  · rename_i binding _
    cases ran : (store.transaction fun store =>
        store.receipt digest (.plan binding call.reviewer) call.now).2 with
    | error error => rw [transaction_error ran]
    | ok receiptId => exact (receipt_eq_ok (transaction_eq_ok ran)).2.1

variable {call : Prepare} {value : State} {store' : Store}

variable {binding : Binding}

theorem prepareNew_eq_ok {state : State}
    (ok : prepareNew digest store call binding state = .ok (store', value)) : store'.readState =
    value ∧ value.superseded = state.superseded ∧ ∃ pair, value.active = some pair ∧ ∀ previous ∈ state.superseded,
    repeats pair.video previous.video = false ∧ repeats pair.thumbnail previous.thumbnail = false := by
  simp only [prepareNew, bind_eq_ok, require_eq_ok, pure_eq_ok] at ok
  obtain ⟨⟨rendered, video, thumbnail⟩, -, _, distinct, _, -, ⟨middle, renderReceipt⟩, -, ok⟩ := ok
  cases ok
  refine ⟨rfl, rfl, _, rfl, fun previous remembered => ?_⟩
  rw [mem_def.mp remembered] at distinct
  simpa using distinct

theorem prepareBody_eq_ok (ok : prepareBody digest store call binding = .ok (store', value)) :
    (store.readState.active = none → prepareNew digest store call binding store.readState = .ok (store', value)) ∧
    (store.readState.active ≠ none → store' = store) := by
  simp only [prepareBody, bind_eq_ok, require_eq_ok] at ok
  obtain ⟨_, -, _, -, ok⟩ := ok
  split at ok
  · rename_i pair active
    simp only [bind_eq_ok, pure_eq_ok] at ok
    obtain ⟨_, -, _, -, ok⟩ := ok
    cases ok
    exact ⟨fun none => by simp [none] at active, fun _ => rfl⟩
  · rename_i none
    exact ⟨fun _ => ok, fun some => absurd none some⟩

theorem prepare_eq_ok (ok : (prepare digest store call).2 = .ok value) :
    ∃ binding, prepareBody digest store call binding = .ok ((prepare digest store call).1, value) := by
  unfold prepare at ok ⊢
  simp only at ok ⊢
  split at ok
  · cases ok
  · rename_i binding checked
    exact ⟨binding, transaction_eq_ok ok⟩

theorem prepare_superseded (call : Prepare) :
    (prepare digest store call).1.readState.superseded = store.readState.superseded := by
  cases ran : (prepare digest store call).2 with
  | error error => rw [(prepare_outcome call).refused error ran]
  | ok value =>
    obtain ⟨binding, body⟩ := prepare_eq_ok ran
    obtain ⟨fresh, kept⟩ := prepareBody_eq_ok body
    by_cases none : store.readState.active = none
    · obtain ⟨read, same, -⟩ := prepareNew_eq_ok (fresh none)
      rw [read, same]
    · rw [kept none]

theorem decide_eq_ok {call : Decide} (ok : (decide digest store call).2 = .ok value) : ∃ kind approved, call.approved =
    .bool approved ∧ decideBody digest store call kind approved = .ok ((decide digest store call).1, value) := by
  unfold Offline.decide at ok ⊢
  split at ok
  · rename_i kind approved _ is
    split_ifs at ok with unnamed silent
    simp only [unnamed, silent, if_false]
    exact ⟨kind, approved, is, transaction_eq_ok ok⟩
  · cases ok

variable {kind : Kind}

theorem decideBody_rejects {call : Decide} (ok : decideBody digest store call kind false = .ok (store', value)) :
    store'.readState.superseded = store.readState.active ∧ store.readState.active ≠ none := by
  simp only [decideBody] at ok
  split at ok
  · cases ok
  · rename_i pair active
    simp only [bind_eq_ok, require_eq_ok, Bool.false_eq_true, false_and, if_false, pure_eq_ok] at ok
    obtain ⟨_, -, _, -, _, -, ⟨middle, receiptId⟩, -, ok⟩ := ok
    cases ok
    rw [active]
    exact ⟨rfl, some_ne_none pair⟩

theorem decideBody_approves {call : Decide} (ok : decideBody digest store call kind true = .ok (store', value)) :
    store'.readState.superseded = store.readState.superseded := by
  rcases decideBody_eq_ok ok with rfl | ⟨pair, active, -, -, middle, receiptId, recorded, rfl⟩
  · rfl
  · rfl

theorem decide_superseded (call : Decide) : (decide digest store call).1.readState.superseded =
      (rejected digest store (.decide call)).or store.readState.superseded := by
  simp only [rejected]
  cases ran : (decide digest store call).2 with
  | error error =>
    rw [(decide_outcome call).refused error ran]
    rfl
  | ok value =>
    obtain ⟨kind, approved, is, body⟩ := decide_eq_ok ran
    rw [is]
    cases approved with
    | true => exact decideBody_approves body
    | false =>
      obtain ⟨retired, some⟩ := decideBody_rejects body
      obtain ⟨pair, active⟩ := ne_none_iff_exists'.mp some
      rw [retired, active]
      rfl

theorem superseded_performAll (calls : List Call) : (performAll digest .empty calls).readState.superseded =
      (rejections digest .empty calls).getLast? := by
  induction calls using reverseRecOn with
  | nil => rfl
  | append_singleton calls call ih =>
    rw [performAll_concat, rejections_concat]
    generalize performAll digest .empty calls = store at ih ⊢
    cases call with
    | approvePlan call =>
      simp only [rejected, toList_none, append_nil]
      exact (congrArg State.superseded (approvePlan_readState call)).trans ih
    | prepare call =>
      simp only [rejected, toList_none, append_nil]
      exact (prepare_superseded call).trans ih
    | decide call =>
      refine (decide_superseded call).trans ?_
      cases rejected digest store (.decide call) with
      | none => simpa using ih
      | some pair => simp

theorem prepare_differs_from_last_rejected {calls : List Call}
    {call : Prepare} {state : State} (idle : (performAll digest .empty calls).readState.active = none)
    (ok : (prepare digest (performAll digest .empty calls) call).2 = .ok state) : ∃ pair, state.active = some pair ∧
    ∀ old ∈ (rejections digest .empty calls).getLast?, pair.video.sha256 ≠ old.video.sha256 ∧ pair.video.path
    ≠ old.video.path ∧ pair.thumbnail.sha256 ≠ old.thumbnail.sha256 ∧ pair.thumbnail.path ≠ old.thumbnail.path := by
  obtain ⟨binding, body⟩ := prepare_eq_ok ok
  obtain ⟨-, -, pair, active, distinct⟩ := prepareNew_eq_ok ((prepareBody_eq_ok body).1 idle)
  refine ⟨pair, active, fun old last => ?_⟩
  rw [← superseded_performAll] at last
  simpa [repeats, and_assoc] using distinct old last

def sampleEpisode : CompiledEpisode := ⟨"EP9", "c", [⟨0, 5, false⟩], none⟩

def sampleContract : ThumbnailContract := ⟨"Coragem", "Davi e Golias", "— 1 Samuel 17", none⟩

def sampleLook : Look := ⟨.ok (), .ok (), .ok ()⟩

def sampleFiles (sha : String) : Files := ⟨fun _ => .ok sha, fun _ => .ok ()⟩

def samplePrepare (revision sha : String) : Prepare where
  episode := sampleEpisode
  manifest := ⟨"m", ["a.png"]⟩
  contract := sampleContract
  planReceipt := "plan"
  hold := 4
  videoSuffix := ".mkv"
  look := sampleLook
  files := sampleFiles sha
  revision := revision
  directory := .ok ("revisions/" ++ revision)
  render := .ok .null
  compose := .ok ("revisions/" ++ revision ++ "/thumbnail.png")
  lookAgain := sampleLook
  now := "render " ++ revision

def sampleReject (revision sha : String) : Call :=
  .decide
    { kind := "video", revision := revision, artifactSha256 := sha, approved := .bool false
      reviewer := "director", feedback := "brighter", files := sampleFiles sha
      now := "reject " ++ revision }

def sampleRejections : List Call :=
  [.approvePlan
      { episode := sampleEpisode, manifest := ⟨"m", ["a.png"]⟩, contract := sampleContract
        reviewer := "director", hold := 4, look := sampleLook, now := "plan" },
    .prepare (samplePrepare "r1" "dark"), sampleReject "r1" "dark",
    .prepare (samplePrepare "r2" "pale"), sampleReject "r2" "pale"]

theorem sampleRejections_retire :
    (performAll (fun _ => id) .empty sampleRejections).readState.active.isNone = true ∧
    (rejections (fun _ => id) .empty sampleRejections).map (·.video.sha256) = ["dark", "pale"] ∧
    (prepare (fun _ => id) (performAll (fun _ => id) .empty sampleRejections)
      (samplePrepare "r3" "bright")).2.toOption.isSome = true ∧
    ((prepare (fun _ => id) (performAll (fun _ => id) .empty sampleRejections)
      (samplePrepare "r3" "dark")).2.toOption.bind State.active).map (·.video.sha256) = some "dark" := by
  decide +kernel

theorem sampleRejections_idle : (performAll (fun _ => id) .empty sampleRejections).readState.active = none :=
  isNone_iff_eq_none.mp sampleRejections_retire.1

theorem sample_differs_from_last_rejected :
    ∃ state pair, (prepare (fun _ => id) (performAll (fun _ => id) .empty sampleRejections)
        (samplePrepare "r3" "bright")).2 = .ok state ∧
      state.active = some pair ∧
      ∀ old ∈ (rejections (fun _ => id) .empty sampleRejections).getLast?,
        pair.video.sha256 ≠ old.video.sha256 ∧ pair.video.path ≠ old.video.path ∧
        pair.thumbnail.sha256 ≠ old.thumbnail.sha256 ∧
        pair.thumbnail.path ≠ old.thumbnail.path := by
  obtain ⟨-, -, accepted, -⟩ := sampleRejections_retire
  obtain ⟨state, ran⟩ := isSome_iff_exists.mp accepted
  have ok := toOption_eq_some.mp ran
  obtain ⟨pair, active, differs⟩ := prepare_differs_from_last_rejected sampleRejections_idle ok
  exact ⟨state, pair, ok, active, differs⟩

theorem retired_pair_active_again : ¬ ∀ (digest : Body → String → String) (calls : List Call)
    (call : Prepare) (state : State) (pair : Pair), (performAll digest .empty calls).readState.active = none →
    (prepare digest (performAll digest .empty calls) call).2 = .ok state → state.active = some pair → ∀ old ∈ rejections
    digest .empty calls, pair.video.sha256 ≠ old.video.sha256 ∧ pair.thumbnail.sha256 ≠ old.thumbnail.sha256 := by
  intro always
  obtain ⟨-, retired, -, again⟩ := sampleRejections_retire
  obtain ⟨pair, activated, same⟩ := map_eq_some_iff.mp again
  obtain ⟨state, ran, active⟩ := bind_eq_some_iff.mp activated
  obtain ⟨old, member, hash⟩ : ∃ old ∈ rejections (fun _ => id) .empty sampleRejections,
      old.video.sha256 = "dark" := by
    apply List.mem_map.mp
    rw [retired]
    exact mem_cons_self
  exact (always _ _ _ state pair sampleRejections_idle (toOption_eq_some.mp ran) active old member).1
    (same.trans hash.symm)

end VideoPoster.Offline
