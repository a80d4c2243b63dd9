import Mathlib.Data.Rat.Defs

/-!
# JSON values
-/

namespace VideoPoster.Python

inductive Json where
  | null
  | bool (value : Bool)
  | num (value : ℚ)
  | str (value : String)
  | arr (items : List Json)
  | obj (entries : List (String × Json))

namespace Json

mutual
def decEq : (a b : Json) → Decidable (a = b)
  | null, null => isTrue rfl
  | bool x, bool y => decidable_of_iff (x = y) (by simp)
  | num x, num y => decidable_of_iff (x = y) (by simp)
  | str x, str y => decidable_of_iff (x = y) (by simp)
  | arr xs, arr ys => @decidable_of_iff _ (xs = ys) (by simp) (decEqItems xs ys)
  | obj xs, obj ys => @decidable_of_iff _ (xs = ys) (by simp) (decEqEntries xs ys)
  | null, bool _ | null, num _ | null, str _ | null, arr _ | null, obj _
  | bool _, null | bool _, num _ | bool _, str _ | bool _, arr _ | bool _, obj _
  | num _, null | num _, bool _ | num _, str _ | num _, arr _ | num _, obj _
  | str _, null | str _, bool _ | str _, num _ | str _, arr _ | str _, obj _
  | arr _, null | arr _, bool _ | arr _, num _ | arr _, str _ | arr _, obj _
  | obj _, null | obj _, bool _ | obj _, num _ | obj _, str _ | obj _, arr _ => isFalse nofun

def decEqItems : (a b : List Json) → Decidable (a = b)
  | [], [] => isTrue rfl
  | [], _ :: _ | _ :: _, [] => isFalse nofun
  | x :: xs, y :: ys =>
    match decEq x y, decEqItems xs ys with
    | isTrue head, isTrue tail => isTrue (by rw [head, tail])
    | isFalse head, _ => isFalse (by simp [head])
    | _, isFalse tail => isFalse (by simp [tail])

def decEqEntries : (a b : List (String × Json)) → Decidable (a = b)
  | [], [] => isTrue rfl
  | [], _ :: _ | _ :: _, [] => isFalse nofun
  | (k, x) :: xs, (l, y) :: ys =>
    match decEq x y, decEqEntries xs ys with
    | isTrue head, isTrue tail => decidable_of_iff (k = l) (by simp [head, tail])
    | isFalse head, _ => isFalse (by simp [head])
    | _, isFalse tail => isFalse (by simp [tail])
end

instance : DecidableEq Json := decEq

end Json

abbrev Dict := List (String × Json)

namespace Dict

def get (dict : Dict) (key : String) : Option Json :=
  (dict.find? fun entry => entry.1 = key).map Prod.snd

def hasKey (dict : Dict) (key : String) : Bool := dict.any fun entry => entry.1 = key

def keysAre (dict : Dict) (keys : List String) : Bool :=
  keys.all dict.hasKey && dict.all fun entry => entry.1 ∈ keys

end Dict

namespace Json

def number : Json → Option ℚ
  | num value => some value
  | bool value => some (if value then 1 else 0)
  | _ => none

mutual
def equals : Json → Json → Bool
  | null, null => true
  | str x, str y => x = y
  | arr xs, arr ys => equalItems xs ys
  | obj xs, obj ys => decide (xs.length = ys.length) && entriesIn xs ys
  | num x, other => other.number = some x
  | bool x, other => other.number = some (if x then 1 else 0)
  | _, _ => false

def equalItems : List Json → List Json → Bool
  | [], [] => true
  | x :: xs, y :: ys => equals x y && equalItems xs ys
  | _, _ => false

def entriesIn : List (String × Json) → List (String × Json) → Bool
  | [], _ => true
  | (key, value) :: rest, dict =>
    (match Dict.get dict key with
      | some other => equals value other
      | none => false) && entriesIn rest dict
end

end Json
end VideoPoster.Python
