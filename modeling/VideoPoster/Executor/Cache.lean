import VideoPoster.Executor.RunConduct

/-!
# Runs over a content-addressed store
-/

namespace VideoPoster.Executor
open Python Billing Tables Interleaving Function List

def identityKeys : List String := ["episode", "compilation", "reviewer"]

mutual
def replaceLocalPaths (files : Files) : Json → Json
  | .obj entries => .obj (replaceEntries files entries)
  | .arr items => .arr (replaceItems files items)
  | .str path =>
    match files path with
    | .ok sha => .obj [("content_sha256", .str sha)]
    | .error _ => .str path
  | value => value

def replaceEntries (files : Files) : List (String × Json) → List (String × Json)
  | [] => []
  | (key, item) :: rest =>
    if key ∈ identityKeys then replaceEntries files rest
    else (key, replaceLocalPaths files item) :: replaceEntries files rest

def replaceItems (files : Files) : List Json → List Json
  | [] => []
  | item :: rest => replaceLocalPaths files item :: replaceItems files rest
end

structure ContentParameters where
  endpoint : String
  mode : Mode
  inputKind : InputKind
  payload : Json

structure ContentAddressedStore where
  root : String
  contentKey : List String → ContentParameters → Result String

def inputHashes (files : Files) : List FrozenAsset → Result (List String)
  | [] => pure []
  | asset :: rest => do
    let sha ← files asset.path
    let hashes ← inputHashes files rest
    pure (sha :: hashes)

structure StoredObject where
  sha256 : String
  hasMetadata : Bool

abbrev StoredObjects := String → Option StoredObject

def StoredObjects.sha256 (objects : StoredObjects) (key : String) : Option String :=
  (objects key).map StoredObject.sha256

def validateKey (key : String) : Result Unit :=
  require (key.length = 64 ∧ key.toList.all (fun c => "0123456789abcdef".toList.contains c) = true)
    (.value "CAS key must be lowercase SHA-256")

inductive Interruption where
  | beforeObject | beforeMetadata

namespace ContentAddressedStore
variable (C : ContentAddressedStore)

def objects : List Char := C.root.toList ++ "/objects/".toList

def objectPath (key : String) : String :=
  .ofList (C.objects ++ (key.toList.take 2 ++ '/' :: key.toList))

def objectKey (path : String) : Option String :=
  let rest := path.toList.drop C.objects.length
  let key := .ofList (rest.drop (min 3 ((rest.length + 1) / 2)))
  if C.objectPath key = path then some key else none

def jobContentKey (files : Files) (job : Job) : Result String := do
  let inputs ← inputHashes files (job.manifest.elim [] Manifest.assets)
  C.contentKey inputs
    ⟨job.endpoint, job.mode, job.inputKind, replaceLocalPaths files (.obj job.payload)⟩

def get (objects : StoredObjects) (key : String) : Result (Option String) := do
  validateKey key
  match objects key with
  | some ⟨_, true⟩ => pure (some (C.objectPath key))
  | _ => pure none

def put (objects : StoredObjects) (interrupted : Option Interruption) (key : String)
    (source : Result String) : StoredObjects × Result String :=
  match source, validateKey key with
  | .error _, _ => (objects, .error (.value "CAS source must be a file"))
  | .ok _, .error error => (objects, .error error)
  | .ok sha, .ok () =>
    match objects key with
    | some object =>
      if object.sha256 ≠ sha then
        (objects, .error (.value "CAS key collision with different output bytes"))
      else if object.hasMetadata = true ∨ interrupted = none then
        (update objects key (some { object with hasMetadata := true }), .ok (C.objectPath key))
      else (objects, .error (.os "metadata not written"))
    | none =>
      match interrupted with
      | none => (update objects key (some ⟨sha, true⟩), .ok (C.objectPath key))
      | some .beforeMetadata =>
        (update objects key (some ⟨sha, false⟩), .error (.os "metadata not written"))
      | some .beforeObject => (objects, .error (.os "object not written"))

end ContentAddressedStore

theorem objectKey_objectPath (C : ContentAddressedStore) (key : String) :
    C.objectKey (C.objectPath key) = some key := by
  have rest : (C.objectPath key).toList.drop C.objects.length = key.toList.take 2 ++ '/' :: key.toList := by
    rw [ContentAddressedStore.objectPath, String.toList_ofList, drop_left]
  have shard : min 3 (((key.toList.take 2 ++ '/' :: key.toList).length + 1) / 2) =
      (key.toList.take 2 ++ ['/']).length := by
    simp only [length_append, length_take, length_cons, length_nil]
    omega
  have cut : (key.toList.take 2 ++ '/' :: key.toList).drop (key.toList.take 2 ++ ['/']).length =
      key.toList := by
    rw [show key.toList.take 2 ++ '/' :: key.toList = key.toList.take 2 ++ ['/'] ++ key.toList by simp, drop_left]
  simp only [ContentAddressedStore.objectKey, rest]
  rw [shard, cut, String.ofList_toList, if_pos rfl]

structure StoreOracle extends Oracle where
  interrupted : Option Interruption := none

namespace ContentAddressedStore
variable (C : ContentAddressedStore) (oracle : StoreOracle) (objects : StoredObjects)

def files : Files := fun path =>
  match C.objectKey path with
  | none => oracle.answer (.fileSha path)
  | some key =>
    match objects key with
    | some object => (oracle.answer (.fileSha path)).map fun _ => object.sha256
    | none => .error (.os "No such file or directory")

def around : Oracle where
  answer
    | .fileSha path => C.files oracle objects path
    | .contentKey job => C.jobContentKey (C.files oracle objects) job
    | .casGet key => oracle.answer (.casGet key) >>= fun _ => C.get objects key
    | .casPut key source =>
      (C.put objects oracle.interrupted key (C.files oracle objects source)).2.map fun _ => ()
    | query => oracle.answer query
  provider := oracle.provider

def stored : Act → StoredObjects
  | .ask (.casPut key source) => (C.put objects oracle.interrupted key (C.files oracle objects source)).1
  | _ => objects

end ContentAddressedStore

structure StoreWorld where
  root : World
  objects : StoredObjects

abbrev storeMachine (D : Deployment) (C : ContentAddressedStore) : Machine actions where
  World := StoreWorld
  Oracle := StoreOracle
  exec oracle pid w action :=
    (exec D (C.around oracle w.objects) pid w.root action).map fun after =>
      (⟨after.1, C.stored oracle w.objects action⟩, after.2)
  crash pid w := { w with root := w.root.crash pid }

def storeRoot (D : Deployment) (C : ContentAddressedStore) (objects : StoredObjects) :
    Config (storeMachine D C) Error :=
  Config.initial ⟨World.empty, objects⟩

variable {D : Deployment} {C : ContentAddressedStore} {s s' : Shared (storeMachine D C)} {pid : ℕ}
  {action : Act} {response : action.Res}

def atRoot (s : Shared (storeMachine D C)) : Shared (machine D) := ⟨s.world.root, s.trace⟩

theorem performs_oracle (performs : Performs pid action response s s') : ∃ oracle :
    StoreOracle, exec D (C.around oracle s.world.objects) pid s.world.root action = some (s'.world.root, response)
    ∧ s'.world.objects = C.stored oracle s.world.objects action ∧ s'.trace = ⟨pid, action, response⟩ :: s.trace := by
  obtain ⟨oracle, ran, traced⟩ := performs
  obtain ⟨⟨root, answer⟩, executed, same⟩ := Option.map_eq_some_iff.mp ran
  obtain ⟨world, rfl⟩ := Prod.mk.inj same
  exact ⟨oracle, by rw [executed, ← world], by rw [← world], traced⟩

theorem performs_atRoot (performs : Performs pid action response s s') :
    Performs pid action response (atRoot s) (atRoot s') := by
  obtain ⟨oracle, executed, -, traced⟩ := performs_oracle performs
  exact ⟨C.around oracle s.world.objects, executed, traced⟩

theorem sha256_put {objects : StoredObjects} {interrupted : Option Interruption} {key sha target : String}
    {source : Result String} (held : objects.sha256 key = some sha) :
    (C.put objects interrupted target source).1.sha256 key = some sha := by
  unfold ContentAddressedStore.put
  split
  · exact held
  · exact held
  · split
    · rename_i object found
      split_ifs
      · exact held
      · by_cases same : key = target
        · subst same
          simpa [StoredObjects.sha256, found] using held
        · simpa [StoredObjects.sha256, update_of_ne same] using held
      · exact held
    · rename_i absent
      have other : key ≠ target := by
        rintro rfl
        simp [StoredObjects.sha256, absent] at held
      split <;> simpa [StoredObjects.sha256, update_of_ne other] using held

theorem sha256_performs {key sha : String} (held : s.world.objects.sha256 key = some sha)
    (performs : Performs pid action response s s') : s'.world.objects.sha256 key = some sha := by
  obtain ⟨oracle, -, objects, -⟩ := performs_oracle performs
  rw [objects]
  unfold ContentAddressedStore.stored
  split
  · exact sha256_put held
  · exact held

theorem sha256_reaches {kinds : Set Call} {c c' : Config (storeMachine D C) Error} {key sha : String}
    (held : c.world.objects.sha256 key = some sha)
    (reaches : Reaches (callsIn D kinds) anyStep c c') : c'.world.objects.sha256 key = some sha :=
  reaches.invariant (K := fun s : Shared (storeMachine D C) => s.world.objects.sha256 key = some sha)
    sha256_performs (fun _ => id) held

end VideoPoster.Executor
