import Mathlib.Data.List.TakeWhile
import Mathlib.Tactic.Common

/-!
# Parsed TOML documents

`toml::Value`. A table is the list of its entries in the order the map yields
them; floats and datetimes are only ever copied, so they are kept as the bits
and the text they stand for. Texts are sequences of Unicode scalar values.

`EqExcept P` is equality of documents up to the table entries `P` lets differ;
`StringsRel R` is equality up to the strings, which `R` relates.
-/

namespace DoggyDns

/-- A Rust `str`. -/
abbrev Text := List Char

/-- `str::as_bytes`. -/
def utf8 (t : Text) : List UInt8 := t.flatMap String.utf8EncodeChar

/-- `char::is_whitespace`. -/
def isWhitespace (c : Char) : Bool :=
  let n := c.toNat
  (0x09 ≤ n && n ≤ 0x0D) || n == 0x20 || n == 0x85 || n == 0xA0 || n == 0x1680 ||
    (0x2000 ≤ n && n ≤ 0x200A) || n == 0x2028 || n == 0x2029 || n == 0x202F || n == 0x205F ||
    n == 0x3000

def trim (t : Text) : Text := ((t.dropWhile isWhitespace).reverse.dropWhile isWhitespace).reverse

def stripPrefix (c : Char) (t : Text) : Option Text :=
  if t.head? = some c then some t.tail else none

def stripSuffix (c : Char) (t : Text) : Option Text :=
  if t.getLast? = some c then some t.dropLast else none

/-! ## Trimming -/

/-- `name` is `text` without the white space around it. -/
structure Trims (text name : Text) : Prop where
  around : ∃ front back, text = front ++ (name ++ back) ∧
    (∀ c ∈ front, isWhitespace c = true) ∧ ∀ c ∈ back, isWhitespace c = true
  first : ∀ c, name.head? = some c → isWhitespace c = false
  last : ∀ c, name.getLast? = some c → isWhitespace c = false

section
variable {text name : Text}

theorem head?_dropWhile_isWhitespace (text : Text) (c : Char)
    (h : (text.dropWhile isWhitespace).head? = some c) : isWhitespace c = false := by
  have := List.head?_dropWhile_not isWhitespace text
  rw [h] at this
  simpa using this

theorem dropWhile_isWhitespace (h : ∀ c, text.head? = some c → isWhitespace c = false) :
    text.dropWhile isWhitespace = text := by
  cases text with
  | nil => rfl
  | cons c text =>
    exact List.dropWhile_cons_of_neg (by rw [h c rfl]; exact Bool.false_ne_true)

theorem mem_takeWhile_isWhitespace (c : Char) (h : c ∈ text.takeWhile isWhitespace) :
    isWhitespace c = true :=
  List.all_eq_true.mp List.all_takeWhile c h

theorem trim_trims (text : Text) : Trims text (trim text) := by
  have hfront : text.takeWhile isWhitespace ++ text.dropWhile isWhitespace = text :=
    List.takeWhile_append_dropWhile
  have hback : trim text ++ ((text.dropWhile isWhitespace).reverse.takeWhile isWhitespace).reverse =
      text.dropWhile isWhitespace := by
    unfold trim
    rw [← List.reverse_append, List.takeWhile_append_dropWhile, List.reverse_reverse]
  refine ⟨⟨_, _, (by rw [hback, hfront]), mem_takeWhile_isWhitespace, fun c hc =>
    mem_takeWhile_isWhitespace c (List.mem_reverse.mp hc)⟩, fun c hc => ?_, fun c hc => ?_⟩
  · refine head?_dropWhile_isWhitespace text c ?_
    rw [← hback, List.head?_append, hc]
    rfl
  · unfold trim at hc
    rw [List.getLast?_reverse] at hc
    exact head?_dropWhile_isWhitespace _ c hc

theorem Trims.eq_trim (h : Trims text name) : trim text = name := by
  obtain ⟨front, back, rfl, hfront, hback⟩ := h.around
  unfold trim
  rw [List.dropWhile_append_of_pos hfront]
  cases name with
  | nil =>
    rw [List.nil_append, List.dropWhile_eq_nil_iff.mpr hback]
    rfl
  | cons c name =>
    have hkeep : (c :: name ++ back).dropWhile isWhitespace = c :: name ++ back :=
      dropWhile_isWhitespace h.first
    have hlast : (c :: name).reverse.dropWhile isWhitespace = (c :: name).reverse :=
      dropWhile_isWhitespace fun d hd => h.last d (List.head?_reverse ▸ hd)
    rw [hkeep, List.reverse_append,
      List.dropWhile_append_of_pos (fun d hd => hback d (List.mem_reverse.mp hd)), hlast,
      List.reverse_reverse]

theorem trims_iff : Trims text name ↔ trim text = name :=
  ⟨Trims.eq_trim, fun h => h ▸ trim_trims text⟩

/-- Nothing is left of a text exactly when it is white space. -/
theorem trim_eq_nil_iff : trim text = [] ↔ ∀ c ∈ text, isWhitespace c = true := by
  rw [← trims_iff]
  constructor
  · intro h
    obtain ⟨front, back, rfl, hfront, hback⟩ := h.around
    exact List.forall_mem_append.mpr ⟨hfront, hback⟩
  · intro h
    exact ⟨⟨text, [], (List.append_nil text).symm, h, nofun⟩, nofun, nofun⟩

end

namespace Toml

inductive Value where
  | string (text : Text)
  | integer (i : Int64)
  | float (bits : UInt64)
  | boolean (b : Bool)
  | datetime (text : Text)
  | array (items : List Value)
  | table (entries : List (Text × Value))

/-- The dotted path of a table entry. -/
def childPath (path key : Text) : Text := if path.isEmpty then key else path ++ '.' :: key

/-- The path of an array element. -/
def itemPath (path : Text) (i : Nat) : Text := path ++ '[' :: (toString i).toList ++ [']']

def Value.isString : Value → Bool
  | .string _ => true
  | _ => false

def Value.asString : Value → Option Text
  | .string text => some text
  | _ => none

/-- A field of a derived struct: by name in a table, by position in an array. -/
def Value.field (name : Text) (index : Nat) : Value → Option Value
  | .table entries => entries.lookup name
  | .array items => items[index]?
  | _ => none

section
variable (P : Text → Value → Value → Prop)

mutual

/-- The same document, but for entries `P` lets differ. -/
def Value.EqExcept : Value → Value → Prop
  | .array xs, .array ys => EqExceptItems xs ys
  | .table es, .table fs => EqExceptEntries es fs
  | v, w => v = w
  termination_by structural v => v

def EqExceptItems : List Value → List Value → Prop
  | [], [] => True
  | x :: xs, y :: ys => x.EqExcept y ∧ EqExceptItems xs ys
  | _, _ => False
  termination_by structural xs => xs

def EqExceptEntries : List (Text × Value) → List (Text × Value) → Prop
  | [], [] => True
  | (k, v) :: es, (l, w) :: fs => k = l ∧ (P k v w ∨ v.EqExcept w) ∧ EqExceptEntries es fs
  | _, _ => False
  termination_by structural es => es

end

variable {P}

/-- Such documents have strings in the same places. -/
theorem Value.EqExcept.isString_eq {v w : Value} (h : v.EqExcept P w) :
    v.isString = w.isString := by
  cases v <;> cases w <;> first | rfl | cases h

end

mutual

/-- No table of the document has a key `p` selects. -/
def Value.KeysAvoid (p : Text → Bool) : Value → Prop
  | .array items => ItemsAvoid p items
  | .table entries => EntriesAvoid p entries
  | _ => True
  termination_by structural v => v

def ItemsAvoid (p : Text → Bool) : List Value → Prop
  | [] => True
  | v :: items => v.KeysAvoid p ∧ ItemsAvoid p items
  termination_by structural items => items

def EntriesAvoid (p : Text → Bool) : List (Text × Value) → Prop
  | [] => True
  | (k, v) :: entries => p k = false ∧ v.KeysAvoid p ∧ EntriesAvoid p entries
  termination_by structural entries => entries

end

section
variable (R : Text → Text → Prop)

mutual

/-- The same document, but for its strings. -/
def Value.StringsRel : Value → Value → Prop
  | .string t, .string u => R t u
  | .array xs, .array ys => ItemsRel xs ys
  | .table es, .table fs => EntriesRel es fs
  | v, w => v = w
  termination_by structural v => v

def ItemsRel : List Value → List Value → Prop
  | [], [] => True
  | x :: xs, y :: ys => x.StringsRel y ∧ ItemsRel xs ys
  | _, _ => False
  termination_by structural xs => xs

def EntriesRel : List (Text × Value) → List (Text × Value) → Prop
  | [], [] => True
  | (k, v) :: es, (l, w) :: fs => k = l ∧ v.StringsRel w ∧ EntriesRel es fs
  | _, _ => False
  termination_by structural es => es

end

variable {R}

theorem ItemsRel.getElem? {xs ys : List Value} (h : ItemsRel R xs ys) (i : Nat) :
    Option.Rel (Value.StringsRel R) xs[i]? ys[i]? := by
  induction xs generalizing ys i with
  | nil =>
    cases ys with
    | nil => exact .none
    | cons => exact h.elim
  | cons x xs ih =>
    cases ys with
    | nil => exact h.elim
    | cons y ys =>
      cases i with
      | zero => exact .some h.1
      | succ i => exact ih h.2 i

theorem EntriesRel.lookup {es fs : List (Text × Value)} (h : EntriesRel R es fs) (key : Text) :
    Option.Rel (Value.StringsRel R) (es.lookup key) (fs.lookup key) := by
  induction es generalizing fs with
  | nil =>
    cases fs with
    | nil => exact .none
    | cons => exact h.elim
  | cons e es ih =>
    cases fs with
    | nil => exact h.elim
    | cons f fs =>
      obtain ⟨k, v⟩ := e
      obtain ⟨l, w⟩ := f
      obtain ⟨rfl, hv, hrest⟩ := h
      rw [List.lookup_cons, List.lookup_cons]
      cases key == k with
      | true => exact .some hv
      | false => exact ih hrest

theorem Value.StringsRel.field {v w : Value} (h : v.StringsRel R w) (name : Text) (index : Nat) :
    Option.Rel (Value.StringsRel R) (v.field name index) (w.field name index) := by
  cases v <;> cases w
  case array.array => exact ItemsRel.getElem? h index
  case table.table => exact EntriesRel.lookup h name
  all_goals first | exact .none | cases h

theorem Value.StringsRel.asString {v w : Value} {u : Text} (h : v.StringsRel R w)
    (hu : w.asString = some u) : ∃ t, v.asString = some t ∧ R t u := by
  cases w with
  | string =>
    cases hu
    cases v with
    | string t => exact ⟨t, rfl, h⟩
    | _ => cases h
  | _ => cases hu

end

end Toml

end DoggyDns
