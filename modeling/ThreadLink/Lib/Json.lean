import ThreadLink.Lib.Text

/-!
# Parsed JSON, and what `String` makes of it

The values `JSON.parse` returns, with the rules by which ECMAScript turns a value
into a string. A number is given by the text `String` makes of it. An object has
its fields in the order of the source text; of a repeated key the last counts.

`String` of an object calls its `toString` and, if that is not callable or gives an
object, its `valueOf`; if neither gives a primitive it raises a `TypeError`. A
parsed value is never callable, so an object with a field of that name hides the
method it would have inherited. `String` of an array joins what `String` makes of
its elements.

## What is proved

* `toText_isOk_iff` — `String` raises on exactly the values that are not `Printable`.

Not modelled: the depth at which the recursion of `String` exhausts the stack.
-/

namespace ThreadLink

open Text

/-- A parsed JSON value. -/
inductive Json where
  /-- `null`. -/
  | null
  /-- A boolean. -/
  | bool (b : Bool)
  /-- A number, by its text. -/
  | num (shown : Units)
  /-- A string. -/
  | str (s : Units)
  /-- An array. -/
  | arr (elements : List Json)
  /-- An object. -/
  | obj (fields : List (Units × Json))

namespace Json

/-- The exception `TypeError`. -/
structure TypeError where
  /-- Its message. -/
  message : Units
  deriving DecidableEq, Repr

/-- A field of an object; `undefined` is none. -/
def lookup (fields : List (Units × Json)) (key : Units) : Option Json :=
  (fields.reverse.find? fun e => e.1 == key).map Prod.snd

/-- `value[key]`, for a value whose `typeof` is `"object"` and a key that names no
element of an array and nothing an object inherits. -/
def get (value : Json) (key : Units) : Option Json :=
  match value with
  | .obj fields => lookup fields key
  | _ => none

/-- `typeof value === "object" && value !== null`. -/
def isObject : Json → Bool
  | .arr _ | .obj _ => true
  | _ => false

/-- `typeof value === "string" && value.length > 0`, and then the string. -/
def nonEmptyString? : Option Json → Option Units
  | some (.str s) => if s.isEmpty then none else some s
  | _ => none

/-! ### `String` -/

/-- What calling a method of a parsed object gives: nothing if what it has under that
name is not callable, else a primitive or an object (`none`). -/
def callMethod (fields : List (Units × Json)) (name : Units) : Option (Option Units) :=
  if (lookup fields name).isSome then none
  else if name = units "toString" then some (some (units "[object Object]"))
  else if name = units "valueOf" then some none
  else none

/-- `OrdinaryToPrimitive`: the first method that gives a primitive. -/
def ordinaryToPrimitive (fields : List (Units × Json)) : List Units → Except TypeError Units
  | [] => .error ⟨units "Cannot convert object to primitive value"⟩
  | name :: names =>
    match callMethod fields name with
    | some (some text) => .ok text
    | _ => ordinaryToPrimitive fields names

mutual

/-- `String` of a value. -/
def toText : Json → Except TypeError Units
  | .null => .ok (units "null")
  | .bool true => .ok (units "true")
  | .bool false => .ok (units "false")
  | .num shown => .ok shown
  | .str s => .ok s
  | .arr elements => do return (units ",").intercalate (← toTexts elements)
  | .obj fields => ordinaryToPrimitive fields [units "toString", units "valueOf"]

/-- What an array joins: the texts of its elements, nothing for `null`. -/
def toTexts : List Json → Except TypeError (List Units)
  | [] => .ok []
  | .null :: rest => do return [] :: (← toTexts rest)
  | value :: rest => do
    let text ← toText value
    return text :: (← toTexts rest)

end

/-- `String` of what may be `undefined`. -/
def toText? : Option Json → Except TypeError Units
  | none => .ok (units "undefined")
  | some value => value.toText

mutual

/-- No object with a `toString` of its own, and no array that holds one at any depth. -/
def Printable : Json → Prop
  | .arr elements => AllPrintable elements
  | .obj fields => lookup fields (units "toString") = none
  | _ => True

/-- All elements are printable. -/
def AllPrintable : List Json → Prop
  | [] => True
  | value :: rest => value.Printable ∧ AllPrintable rest

end

/-- `String` of an object raises exactly if the object has its own `toString`. -/
theorem ordinaryToPrimitive_isOk_iff (fields : List (Units × Json)) :
    (∃ text, ordinaryToPrimitive fields [units "toString", units "valueOf"] = .ok text) ↔
      lookup fields (units "toString") = none := by
  have hne : units "valueOf" ≠ units "toString" := by decide
  cases h : lookup fields (units "toString") with
  | none => simp [ordinaryToPrimitive, callMethod, h]
  | some v =>
    have hv : callMethod fields (units "valueOf") = none ∨
        callMethod fields (units "valueOf") = some none := by
      unfold callMethod
      split_ifs <;> simp_all
    rcases hv with hv | hv <;> simp [ordinaryToPrimitive, callMethod, h] <;> simp_all [callMethod]

mutual

/-- **`String` raises on exactly the values that are not printable.** -/
theorem toText_isOk_iff : ∀ v : Json, (∃ text, v.toText = .ok text) ↔ v.Printable
  | .null | .bool true | .bool false | .num _ | .str _ => by simp [toText, Printable]
  | .obj fields => by simpa only [toText, Printable] using ordinaryToPrimitive_isOk_iff fields
  | .arr elements => by
    rw [Printable, ← toTexts_isOk_iff elements, toText]
    cases toTexts elements with
    | ok texts => simp [bind, Except.bind, pure, Except.pure]
    | error e => simp [bind, Except.bind]

theorem toTexts_isOk_iff : ∀ l : List Json, (∃ texts, toTexts l = .ok texts) ↔ AllPrintable l
  | [] => by simp [toTexts, AllPrintable]
  | v :: rest => by
    have h1 := toText_isOk_iff v
    have h2 := toTexts_isOk_iff rest
    rw [AllPrintable, ← h1, ← h2]
    cases v with
    | null =>
      rw [toTexts]
      cases toTexts rest <;> simp [toText, bind, Except.bind, pure, Except.pure]
    | _ =>
      rw [toTexts]
      · generalize toText _ = x
        cases x <;> cases toTexts rest <;> simp [bind, Except.bind, pure, Except.pure]
      · simp

end

theorem toText?_isOk_iff (v : Option Json) :
    (∃ text, toText? v = .ok text) ↔ ∀ w, v = some w → w.Printable := by
  cases v with
  | none => simp [toText?]
  | some w => simpa [toText?] using toText_isOk_iff w

end Json

end ThreadLink
