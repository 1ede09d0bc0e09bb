import ScriptWorker.Json.Reader

/-!
# JSON texts

The texts of JSON as trees: numerals, strings and containers as they are written, with the blanks
between their tokens. `Written.text` is the text of a tree, and every text of the grammar is that of
one. `Written.value?` is the value that it stands for, with escapes decoded; a numeral out of range
and an escape that is half of a pair stand for nothing. Both are computed, so that a text can be
looked at beside its value.
-/

set_option autoImplicit false

namespace ScriptWorker.Json

/-- Blanks between tokens. -/
abbrev Gap := { s : List Char // ∀ c ∈ s, isGap c = true }

/-- One or more decimal digits. -/
abbrev Digits := { s : List Char // s ≠ [] ∧ ∀ c ∈ s, c.isDigit = true }

/-! ## Numerals -/

/-- The exponent of a numeral. -/
structure Exponent where
  /-- Whether its mark is a capital letter. -/
  capital : Bool
  /-- Whether a written sign is a minus. -/
  sign : Option Bool
  digits : Digits

/-- The sign of an exponent, if it is written. -/
def Exponent.signText : Option Bool → List Char
  | none => []
  | some true => ['-']
  | some false => ['+']

/-- The text of an exponent. -/
def Exponent.text (e : Exponent) : List Char :=
  (if e.capital then 'E' else 'e') :: (signText e.sign ++ e.digits.1)

/-- A numeral. Its whole part starts with a zero only if it is zero. -/
structure Numeral where
  negative : Bool
  whole : Digits
  fraction : Option Digits
  exponent : Option Exponent
  noLeadingZero : whole.1.head? = some '0' → whole.1 = ['0']

namespace Numeral

/-- The exponent's text, if there is one. -/
def exponentText (e : Option Exponent) : List Char := (e.map Exponent.text).getD []

/-- The fraction's text, if there is one. -/
def fractionText (f : Option Digits) : List Char := (f.map fun ds => '.' :: ds.1).getD []

/-- The text after the sign. -/
def magnitude (n : Numeral) : List Char :=
  n.whole.1 ++ (fractionText n.fraction ++ exponentText n.exponent)

/-- The text of a numeral. -/
def text (n : Numeral) : List Char := if n.negative then '-' :: n.magnitude else n.magnitude

/-- The number, if it is in range: what is read from the numeral on its own. -/
def value? (n : Numeral) : Option Value :=
  match readNumber n.negative n.magnitude with
  | .ok (v, _) => some v
  | .error _ => none

end Numeral

/-! ## Strings -/

/-- A hexadecimal digit. -/
abbrev HexDigit := { c : Char // (Text.Hex.value? c).isSome = true }

/-- A character of a string as it is written, or a code unit of one. -/
inductive Glyph where
  | plain (c : Char) (h : c ≠ '"' ∧ c ≠ '\\' ∧ 0x20 ≤ c.toNat)
  | short (e : Char) (h : (shortEscape? e).isSome = true)
  | code (w x y z : HexDigit)

namespace Glyph

/-- The text of a glyph. -/
def text : Glyph → List Char
  | plain c _ => [c]
  | short e _ => ['\\', e]
  | code w x y z => ['\\', 'u', w.1, x.1, y.1, z.1]

theorem length_text_pos (g : Glyph) : 0 < g.text.length := by
  cases g <;> exact Nat.succ_pos _

theorem length_le_flatMap (gs : List Glyph) : gs.length ≤ (gs.flatMap text).length := by
  induction gs with
  | nil => exact Nat.le_refl _
  | cons g gs ih =>
    have := g.length_text_pos
    rw [List.flatMap_cons, List.length_append, List.length_cons]
    omega

/-- The code unit of four digits. -/
def unit (w x y z : HexDigit) : Nat :=
  let value (c : HexDigit) : Nat := (Text.Hex.value? c.1).get c.2
  ((value w * 16 + value x) * 16 + value y) * 16 + value z

/-- Whether a code unit is the first of a pair. -/
def IsLeading (n : Nat) : Prop := 0xD800 ≤ n ∧ n ≤ 0xDBFF

/-- Whether a code unit is the second of a pair. -/
def IsTrailing (n : Nat) : Prop := 0xDC00 ≤ n ∧ n ≤ 0xDFFF

instance (n : Nat) : Decidable (IsLeading n) := inferInstanceAs (Decidable (_ ∧ _))

instance (n : Nat) : Decidable (IsTrailing n) := inferInstanceAs (Decidable (_ ∧ _))

/-- The character of a pair. -/
def joined (n m : Nat) : Char := Char.ofNat ((n - 0xD800) * 0x400 + (m - 0xDC00) + 0x10000)

/-- The characters of a string, if each code unit of a pair has its other one. -/
def decode : List Glyph → Option (List Char)
  | [] => some []
  | plain c _ :: rest => (decode rest).map (c :: ·)
  | short e h :: rest => (decode rest).map ((shortEscape? e).get h :: ·)
  | code w x y z :: rest =>
    if IsTrailing (unit w x y z) then none
    else if IsLeading (unit w x y z) then
      match rest with
      | code w' x' y' z' :: rest =>
        if IsTrailing (unit w' x' y' z') then
          (decode rest).map (joined (unit w x y z) (unit w' x' y' z') :: ·)
        else none
      | _ => none
    else (decode rest).map (Char.ofNat (unit w x y z) :: ·)

/-- The string that is written, if there is one. -/
def string? (glyphs : List Glyph) : Option String := (decode glyphs).map String.ofList

end Glyph

/-! ## Values -/

/-- An item of an array, with the blanks around it. -/
structure Item (α : Type) where
  before : Gap
  value : α
  after : Gap

/-- A member of an object, with the blanks around its name and its value. -/
structure Member (α : Type) where
  before : Gap
  name : List Glyph
  behind : Gap
  front : Gap
  value : α
  after : Gap

/-- A value as it is written. `inside` is what stands in an empty container. -/
inductive Written where
  | null
  | bool (b : Bool)
  | number (n : Numeral)
  | string (glyphs : List Glyph)
  | array (inside : Gap) (items : List (Item Written))
  | object (inside : Gap) (members : List (Member Written))

namespace Written

/-- The text of a string in its quotes. -/
def quoted (glyphs : List Glyph) : List Char := '"' :: (glyphs.flatMap Glyph.text ++ ['"'])

theorem quoted_append (glyphs : List Glyph) (rest : List Char) :
    quoted glyphs ++ rest = '"' :: (glyphs.flatMap Glyph.text ++ '"' :: rest) := by
  rw [quoted, List.cons_append, List.append_assoc, List.singleton_append]

theorem length_lt_quoted (glyphs : List Glyph) : glyphs.length < (quoted glyphs).length := by
  have := Glyph.length_le_flatMap glyphs
  rw [quoted, List.length_cons, List.length_append]
  omega

mutual

/-- The text of a value. -/
def text : Written → List Char
  | .null => ['n', 'u', 'l', 'l']
  | .bool true => ['t', 'r', 'u', 'e']
  | .bool false => ['f', 'a', 'l', 's', 'e']
  | .number n => n.text
  | .string glyphs => quoted glyphs
  | .array inside [] => '[' :: (inside.1 ++ [']'])
  | .array _ (item :: items) => '[' :: (itemText item ++ (moreItems items ++ [']']))
  | .object inside [] => '\x7b' :: (inside.1 ++ ['\x7d'])
  | .object _ (member :: members) =>
    '\x7b' :: (memberText member ++ (moreMembers members ++ ['\x7d']))

/-- The text of an item with the blanks around it. -/
def itemText : Item Written → List Char
  | ⟨before, value, after⟩ => before.1 ++ (value.text ++ after.1)

/-- The text of the items after the first one. -/
def moreItems : List (Item Written) → List Char
  | [] => []
  | item :: items => ',' :: (itemText item ++ moreItems items)

/-- The text of a member with the blanks around it. -/
def memberText : Member Written → List Char
  | ⟨before, name, behind, front, value, after⟩ =>
    before.1 ++ (quoted name ++ (behind.1 ++ ':' :: (front.1 ++ (value.text ++ after.1))))

/-- The text of the members after the first one. -/
def moreMembers : List (Member Written) → List Char
  | [] => []
  | member :: members => ',' :: (memberText member ++ moreMembers members)

end

mutual

/-- The value that is written, if there is one. -/
def value? : Written → Option Value
  | .null => some .null
  | .bool b => some (.bool b)
  | .number n => n.value?
  | .string glyphs => (Glyph.string? glyphs).map .string
  | .array _ items => (itemValues? items).map .array
  | .object _ members => (memberValues? members).map .ofMembers

@[inherit_doc value?] def itemValues? : List (Item Written) → Option (List Value)
  | [] => some []
  | ⟨_, value, _⟩ :: items =>
    match value.value?, itemValues? items with
    | some v, some vs => some (v :: vs)
    | _, _ => none

@[inherit_doc value?] def memberValues? : List (Member Written) → Option (List (String × Value))
  | [] => some []
  | ⟨_, name, _, _, value, _⟩ :: members =>
    match Glyph.string? name, value.value?, memberValues? members with
    | some key, some v, some vs => some ((key, v) :: vs)
    | _, _, _ => none

end

theorem of_itemValues? {before after : Gap} {value : Written} {items : List (Item Written)}
    {vs : List Value} (h : itemValues? (⟨before, value, after⟩ :: items) = some vs) :
    ∃ v vs', value.value? = some v ∧ itemValues? items = some vs' ∧ vs = v :: vs' := by
  rw [itemValues?] at h
  split at h
  case h_1 v vs' hv hvs => exact ⟨v, vs', hv, hvs, (Option.some.inj h).symm⟩
  case h_2 => cases h

theorem of_memberValues? {before behind front after : Gap} {name : List Glyph} {value : Written}
    {members : List (Member Written)} {vs : List (String × Value)}
    (h : memberValues? (⟨before, name, behind, front, value, after⟩ :: members) = some vs) :
    ∃ key v vs', Glyph.string? name = some key ∧ value.value? = some v ∧
      memberValues? members = some vs' ∧ vs = (key, v) :: vs' := by
  rw [memberValues?] at h
  split at h
  case h_1 key v vs' hkey hv hvs => exact ⟨key, v, vs', hkey, hv, hvs, (Option.some.inj h).symm⟩
  case h_2 => cases h

mutual

/-- How deep containers nest. -/
def depth : Written → Nat
  | .array _ items => itemsDepth items + 1
  | .object _ members => membersDepth members + 1
  | _ => 0

@[inherit_doc depth] def itemsDepth : List (Item Written) → Nat
  | [] => 0
  | ⟨_, value, _⟩ :: items => max value.depth (itemsDepth items)

@[inherit_doc depth] def membersDepth : List (Member Written) → Nat
  | [] => 0
  | ⟨_, _, _, _, value, _⟩ :: members => max value.depth (membersDepth members)

end

end Written

end ScriptWorker.Json
