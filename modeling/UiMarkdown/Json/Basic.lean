import UiMarkdown.Number.Binary64

/-!
# Json values

A value is null, a truth value, a number, a text, an array or an object.  The
members of an object stand in ascending order of their keys, each key once;
every operation on objects here keeps that order.
-/

namespace UiMarkdown

/-- A number: an integer, or a number with a fraction or an exponent. -/
inductive Number where
  | int (value : Int)
  | float (value : Binary64)
  deriving DecidableEq, Repr

inductive Json where
  | null
  | bool (value : Bool)
  | num (value : Number)
  | str (value : String)
  | arr (items : List Json)
  | obj (members : List (String × Json))
  deriving Repr, Inhabited

/-- The members of an object, in ascending order of their keys. -/
abbrev Object := List (String × Json)

namespace Object

def get? (object : Object) (key : String) : Option Json :=
  object.lookup key

def contains (object : Object) (key : String) : Bool :=
  (object.get? key).isSome

def insert : Object → String → Json → Object
  | [], key, value => [(key, value)]
  | (k, v) :: rest, key, value =>
      if key < k then (key, value) :: (k, v) :: rest
      else if key == k then (key, value) :: rest
      else (k, v) :: insert rest key value

def insertNew (object : Object) (key : String) (value : Json) : Object :=
  if object.contains key then object else object.insert key value

def erase (object : Object) (key : String) : Object :=
  object.filter fun (k, _) => k != key

/-- The object with the given members; of equal keys the last one counts. -/
def ofList (members : List (String × Json)) : Object :=
  members.foldl (fun object (key, value) => object.insert key value) []

def values (object : Object) : List Json :=
  object.map (·.2)

end Object

namespace Json

mutual

def same : Json → Json → Bool
  | .null, .null => true
  | .bool a, .bool b => a == b
  | .num a, .num b => decide (a = b)
  | .str a, .str b => a == b
  | .arr a, .arr b => sameItems a b
  | .obj a, .obj b => sameMembers a b
  | _, _ => false

def sameItems : List Json → List Json → Bool
  | [], [] => true
  | a :: as, b :: bs => same a b && sameItems as bs
  | _, _ => false

def sameMembers : List (String × Json) → List (String × Json) → Bool
  | [], [] => true
  | (k, a) :: as, (l, b) :: bs => k == l && same a b && sameMembers as bs
  | _, _ => false

end

mutual

theorem same_self : (a : Json) → same a a = true
  | .null => rfl
  | .bool _ => by simp [same]
  | .num _ => by simp [same]
  | .str _ => by simp [same]
  | .arr items => by simpa [same] using sameItems_self items
  | .obj members => by simpa [same] using sameMembers_self members

theorem sameItems_self : (items : List Json) → sameItems items items = true
  | [] => rfl
  | a :: as => by simp [sameItems, same_self a, sameItems_self as]

theorem sameMembers_self : (members : List (String × Json)) → sameMembers members members = true
  | [] => rfl
  | (k, a) :: as => by simp [sameMembers, same_self a, sameMembers_self as]

end

mutual

theorem eq_of_same : (a b : Json) → same a b = true → a = b
  | .null, b, h => by cases b <;> simp_all [same]
  | .bool _, b, h => by cases b <;> simp_all [same]
  | .num _, b, h => by cases b <;> simp_all [same]
  | .str _, b, h => by cases b <;> simp_all [same]
  | .arr as, b, h => by
      cases b <;> simp only [same, Bool.false_eq_true] at h
      rename_i bs
      rw [eq_of_sameItems as bs h]
  | .obj as, b, h => by
      cases b <;> simp only [same, Bool.false_eq_true] at h
      rename_i bs
      rw [eq_of_sameMembers as bs h]

theorem eq_of_sameItems : (as bs : List Json) → sameItems as bs = true → as = bs
  | [], bs, h => by cases bs <;> simp_all [sameItems]
  | a :: as, bs, h => by
      cases bs with
      | nil => simp [sameItems] at h
      | cons b bs =>
          simp only [sameItems, Bool.and_eq_true] at h
          rw [eq_of_same a b h.1, eq_of_sameItems as bs h.2]

theorem eq_of_sameMembers :
    (as bs : List (String × Json)) → sameMembers as bs = true → as = bs
  | [], bs, h => by cases bs <;> simp_all [sameMembers]
  | (k, a) :: as, bs, h => by
      cases bs with
      | nil => simp [sameMembers] at h
      | cons b bs =>
          simp only [sameMembers, Bool.and_eq_true, beq_iff_eq] at h
          rw [h.1.1, eq_of_same a b.2 h.1.2, eq_of_sameMembers as bs h.2]

end

instance : DecidableEq Json := fun a b =>
  decidable_of_iff (same a b = true) ⟨eq_of_same a b, fun h => h ▸ same_self a⟩

end Json

end UiMarkdown
