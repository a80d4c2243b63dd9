import VideoPoster.Documents.Objects
import VideoPoster.Documents.Rewriting

/-!
# `cas`: the key of a job's content
-/

namespace VideoPoster.Cas
open Documents Python Decimal

inductive Parameter where
  | none
  | bool (value : Bool)
  | int (value : ℤ)
  | float (value : Float64)
  | decimal (value : Decimal)
  | str (chars : Text)
  | path (path : Path)
  | list (items : List Parameter)
  | tuple (items : List Parameter)
  | dict (entries : List (Text × Parameter))

abbrev Parameters := List (Text × Parameter)

mutual
def Parameter.single : Parameter → Bool
  | .list items => singleItems items
  | .tuple items => singleItems items
  | .dict entries => decide (entries.map Prod.fst).Nodup && singleEntries entries
  | _ => true

def singleItems : List Parameter → Bool
  | [] => true
  | item :: items => item.single && singleItems items

def singleEntries : Parameters → Bool
  | [] => true
  | (_, value) :: entries => value.single && singleEntries entries
end

structure Job where
  endpoint : Text
  mode : Text
  inputKind : Text
  payload : Parameters
  payloadDict : (Parameter.dict payload).single = true
  manifest : Option (List Path)

abbrev Result (α : Type) := Except Fault α

abbrev Files (B : Type) := Text → Result (Option B)

variable {B : Type} (fileSha256 : B → Text) (sha256 : Text → Text) (nesting : ℕ) (files : Files B)

def identityKeys : List Text := [text "episode", text "compilation", text "reviewer"]

def content (bytes : B) : Parameter := .dict [(text "content_sha256", .str (fileSha256 bytes))]

mutual
def replaceLocalPaths : Parameter → Result Parameter
  | .dict entries => (replaceEntries entries).map .dict
  | .list items => (replaceItems items).map .list
  | .tuple items => (replaceItems items).map .list
  | .str chars => (files chars).map fun found => found.elim (.str chars) (content fileSha256)
  | .path path => (files path.chars).map fun found => found.elim (.path path) (content fileSha256)
  | value => .ok value

def replaceItems : List Parameter → Result (List Parameter)
  | [] => .ok []
  | item :: items => (replaceLocalPaths item).bind fun item =>
    (replaceItems items).map fun items => item :: items

def replaceEntries : Parameters → Result Parameters
  | [] => .ok []
  | (key, value) :: entries =>
    if key ∈ identityKeys then replaceEntries entries
    else (replaceLocalPaths value).bind fun value =>
      (replaceEntries entries).map fun entries => (key, value) :: entries
end

def decimalText (negative : Bool) (coefficient : ℕ) (exponent : ℤ) : Text :=
  fixed negative (normalize coefficient exponent).1 (normalize coefficient exponent).2

def Parameter.written : Parameter → Option Text
  | .str chars => some chars
  | .decimal (.finite negative coefficient exponent) => some (decimalText negative coefficient exponent)
  | .float (.finite negative magnitude) =>
    let literal := (Float64.repr negative magnitude).literal
    some (decimalText literal.negative literal.mantissa literal.scale)
  | _ => Option.none

mutual
def normalized : Parameter → Result (Value Empty)
  | .none => .ok .null
  | .bool value => .ok (.bool value)
  | .int value => .ok (.int value)
  | .list items => (normalizedItems items).map .arr
  | .tuple items => (normalizedItems items).map .arr
  | .dict entries => (normalizedEntries entries).map fun entries => .obj (inOrder entries)
  | .str chars => .ok (.str chars)
  | .decimal value => (Parameter.written (.decimal value)).elim (.error .notFinite) fun chars => .ok (.str chars)
  | .float value => (Parameter.written (.float value)).elim (.error .notFinite) fun chars => .ok (.str chars)
  | .path _ => .error .notSerializable

def normalizedItems : List Parameter → Result (List (Value Empty))
  | [] => .ok []
  | item :: items => (normalized item).bind fun item =>
    (normalizedItems items).map fun items => item :: items

def normalizedEntries : Parameters → Result (Entries Empty)
  | [] => .ok []
  | (key, value) :: entries => (normalized value).bind fun value =>
    (normalizedEntries entries).map fun entries => (key, value) :: entries
end

def inputBytes (path : Path) : Result B := do
  let found ← files path.chars
  found.elim (.error .refused) .ok

def assets (job : Job) : List Path := job.manifest.getD []

def contentKey (inputs : List B) (parameters : Parameter) : Result Text := do
  let parameters ← normalized parameters
  let chars ← dumps (N := Empty) ⟨false, Empty.elim, nesting, compact⟩
    (.obj [(text "input_sha256", .arr (inputs.map fun bytes => .str (fileSha256 bytes))),
      (text "parameters", parameters), (text "schema", .int 1)])
  let bytes ← encoded chars
  pure (sha256 bytes)

def Job.parameters (job : Job) (payload : Parameter) : Parameter :=
  .dict [(text "endpoint", .str job.endpoint), (text "mode", .str job.mode),
    (text "input_kind", .str job.inputKind), (text "payload", payload)]

def jobContentKey (job : Job) : Result Text := do
  let payload ← replaceLocalPaths fileSha256 files (.dict job.payload)
  let inputs ← (assets job).mapM (inputBytes files)
  contentKey fileSha256 sha256 nesting inputs (job.parameters payload)

end VideoPoster.Cas
