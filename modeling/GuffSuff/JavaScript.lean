import Mathlib.Data.List.Basic

/-! The values a JavaScript server gets from a client, with the two conversions
that its code leaves implicit: to a truth value and to a text. -/

namespace JavaScript

/-- What a program asks of the numbers of the runtime. -/
structure Numbers (N : Type) where
  text : N → String
  isZero : N → Bool
  isInteger : N → Bool
  isPositive : N → Bool
  ofNat : Nat → N

/-- A parsed message: JSON, a missing value, or a buffer given by its bytes as text. -/
inductive JsValue (N : Type) where
  | undefined
  | null
  | boolean (b : Bool)
  | number (n : N)
  | string (s : String)
  | buffer (text : String)
  | array (elements : List (JsValue N))
  | object (fields : List (String × JsValue N))

section
variable {N : Type}

namespace JsValue

/-- `value?.name`, where `name` is no property that all objects have. -/
def field (name : String) : JsValue N → JsValue N
  | object fields => (fields.lookup name).getD undefined
  | _ => undefined

variable (js : Numbers N)

def truthy : JsValue N → Bool
  | undefined | null => false
  | boolean b => b
  | number n => !js.isZero n
  | string s => s ≠ ""
  | buffer _ | array _ | object _ => true

mutual

/-- `String(value)`, or nothing when it throws: a field named `toString` hides the method. -/
def text : JsValue N → Option String
  | undefined => some "undefined"
  | null => some "null"
  | boolean b => some (if b then "true" else "false")
  | number n => some (js.text n)
  | string s => some s
  | buffer t => some t
  | array elements => (elementTexts elements).map (",".intercalate ·)
  | object fields => if fields.any (fun f => f.1 = "toString") then none else some "[object Object]"

def elementTexts : List (JsValue N) → Option (List String)
  | [] => some []
  | undefined :: rest => (elementTexts rest).map ("" :: ·)
  | null :: rest => (elementTexts rest).map ("" :: ·)
  | element :: rest => (text element).bind fun t => (elementTexts rest).map (t :: ·)

end

end JsValue

end

def sampleNumbers : Numbers Nat where
  text n := toString n
  isZero n := n == 0
  isInteger _ := true
  isPositive n := 0 < n
  ofNat := id

example : (JsValue.array [.string "a", .null, .array [.number 1, .boolean true]]).text sampleNumbers =
    some "a,,1,true" := by decide

end JavaScript
