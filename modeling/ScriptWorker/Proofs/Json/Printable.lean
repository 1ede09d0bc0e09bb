import ScriptWorker.Proofs.Json.Strings
import ScriptWorker.Proofs.Json.Texts

/-!
# JSON text without control characters

Strings escape the control characters (`printable_stringText`), and numbers are written with digits,
points, signs and exponent marks (`Layout.printable_write`). So no text of a value has a control
character in it, whatever strings and doubles it holds (`printable_render`).
-/

set_option autoImplicit false

namespace ScriptWorker

/-- None of the characters is a control character. -/
def Printable (s : List Char) : Prop := ∀ c ∈ s, 0x20 ≤ c.toNat

@[simp] theorem printable_nil : Printable [] := by
  intro c hc
  cases hc

@[simp] theorem printable_cons {c : Char} {s : List Char} :
    Printable (c :: s) ↔ 0x20 ≤ c.toNat ∧ Printable s :=
  List.forall_mem_cons

@[simp] theorem printable_append {s t : List Char} :
    Printable (s ++ t) ↔ Printable s ∧ Printable t :=
  List.forall_mem_append

theorem Printable.subset {s t : List Char} (ht : Printable t) (h : s ⊆ t) : Printable s :=
  fun c hc => ht c (h hc)

theorem printable_replicate (n : Nat) {c : Char} (hc : 0x20 ≤ c.toNat) :
    Printable (List.replicate n c) := by
  intro d hd
  rw [List.eq_of_mem_replicate hd]
  exact hc

/-! ## Numbers -/

namespace Numeric

theorem printable_digitsOf (n : Nat) : Printable (digitsOf n) := by
  intro c hc
  have hd : c.isDigit = true := Nat.isDigit_of_mem_toDigits (by decide) (by decide) hc
  simp only [Char.isDigit, Bool.and_eq_true, decide_eq_true_eq] at hd
  have h0 : '0'.toNat ≤ c.toNat := hd.1
  exact Nat.le_trans (by decide) h0

theorem printable_exponentText (width : Nat) (k : Int) : Printable (exponentText width k) := by
  have hzeros := printable_replicate (width - (digitsOf k.natAbs).length) (show 0x20 ≤ '0'.toNat by
    decide)
  unfold exponentText padLeft
  split <;> simp [hzeros, printable_digitsOf]

theorem printable_positional (pointZero : Bool) {ds : List Char} (hd : Printable ds) (top : Int) :
    Printable (positional pointZero ds top) := by
  have hzeros : ∀ n, Printable (List.replicate n '0') := fun n => printable_replicate n (by decide)
  have htake : ∀ n, Printable (ds.take n) := fun n => hd.subset (List.take_subset n ds)
  have hdrop : ∀ n, Printable (ds.drop n) := fun n => hd.subset (List.drop_subset n ds)
  cases top with
  | negSucc k => simp [positional, hzeros, hd]
  | ofNat k =>
    unfold positional
    simp only [printable_append, htake, hzeros, true_and]
    split
    · cases pointZero <;> simp
    · simp [hdrop]

theorem printable_scientificDigits (width : Nat) {ds : List Char} (hd : Printable ds) (top : Int) :
    Printable (scientificDigits width ds top) := by
  unfold scientificDigits
  split
  case h_1 => exact printable_nil
  case h_2 d => exact printable_cons.2 ⟨(printable_cons.1 hd).1, printable_exponentText width top⟩
  case h_3 d rest _ =>
    obtain ⟨hc, hrest⟩ := printable_cons.1 hd
    simp [hc, hrest, printable_exponentText]

/-- **Decimal texts hold no control character.** -/
theorem Layout.printable_write (l : Layout) (digits : Nat) (e : Int) :
    Printable (l.write digits e) := by
  have hd := printable_digitsOf digits
  have either : ∀ (p : Prop) [Decidable p] (top : Int), Printable
      (if p then positional l.pointZero (digitsOf digits) top
        else scientificDigits l.exponentWidth (digitsOf digits) top) := by
    intro p _ top
    split
    · exact printable_positional _ hd top
    · exact printable_scientificDigits _ hd top
  exact either _ _

theorem Layout.printable_shortestText (l : Layout) (mantissa : Nat) (exponent : Int) :
    Printable (l.shortestText mantissa exponent) := by
  unfold Layout.shortestText
  split
  · exact l.printable_write _ _
  · exact l.printable_write _ _

end Numeric

namespace Json

open Numeric

theorem printable_floatText (x : Float) : Printable (floatText x).toList := by
  unfold floatText
  split
  case h_1 negative m e _ =>
    have htext := floatLayout.printable_shortestText m e
    rw [String.toList_ofList]
    cases negative <;> simp [signed, htext]
  case h_2 =>
    show Printable ['n', 'u', 'l', 'l']
    simp

theorem printable_toString (n : Int) : Printable (toString n).toList := by
  cases n with
  | ofNat k =>
    rw [show toString (Int.ofNat k) = Nat.repr k from rfl, Nat.toList_repr]
    exact printable_digitsOf k
  | negSucc k =>
    rw [show toString (Int.negSucc k) = "-" ++ Nat.repr (k + 1) from rfl, String.toList_append,
      Nat.toList_repr]
    exact printable_cons.2 ⟨by decide, printable_digitsOf (k + 1)⟩

/-! ## Strings -/

theorem printable_hexDigit {n : Nat} (h : n < 16) : 0x20 ≤ (Text.Hex.digit n).toNat := by
  decide +revert

/-- What a character is written as holds no control character. -/
theorem printable_escapeChar (c : Char) : Printable (escapeChar c) := by
  unfold escapeChar
  split
  case h_8 =>
    split
    case isTrue h =>
      have h1 := printable_hexDigit (show c.toNat / 16 < 16 by omega)
      have h2 := printable_hexDigit (Nat.mod_lt c.toNat (show 16 > 0 by decide))
      simp [h1, h2]
    case isFalse h => simp [Nat.le_of_not_lt h]
  all_goals simp

theorem printable_stringText (s : String) : Printable (stringText s).toList := by
  have hbody : Printable (s.toList.flatMap escapeChar) := by
    intro c hc
    obtain ⟨d, -, hd⟩ := List.mem_flatMap.1 hc
    exact printable_escapeChar d c hd
  simp [toList_stringText, hbody]

/-! ## Values -/

mutual

/-- **The text of a value holds no control character.** -/
theorem printable_render : (v : Value) → Printable v.render.toList
  | .null => by
    show Printable ['n', 'u', 'l', 'l']
    simp
  | .bool true => by
    show Printable ['t', 'r', 'u', 'e']
    simp
  | .bool false => by
    show Printable ['f', 'a', 'l', 's', 'e']
    simp
  | .int n => by
    rw [Value.render, Value.write, String.empty_append]
    exact printable_toString n
  | .float x => by
    rw [Value.render, Value.write, String.empty_append]
    exact printable_floatText x
  | .string s => by
    rw [Value.render, Value.write, String.empty_append]
    exact printable_stringText s
  | .array [] => by
    show Printable ['[', ']']
    simp
  | .object [] => by
    show Printable ['\x7b', '\x7d']
    simp
  | .array (v :: items) => by
    have hv := printable_render v
    have hitems := printable_itemsText items
    simp [Value.toList_render_array, hv, hitems]
  | .object ((key, v) :: members) => by
    have hkey := printable_stringText key
    have hv := printable_render v
    have hmembers := printable_membersText members
    simp [Value.toList_render_object, memberText, hkey, hv, hmembers]

theorem printable_itemsText : (items : List Value) → Printable (itemsText items)
  | [] => printable_nil
  | v :: items => by
    have hv := printable_render v
    have hitems := printable_itemsText items
    simp [hv, hitems]

theorem printable_membersText : (members : List (String × Value)) →
    Printable (membersText members)
  | [] => printable_nil
  | (key, v) :: members => by
    have hkey := printable_stringText key
    have hv := printable_render v
    have hmembers := printable_membersText members
    simp [memberText, hkey, hv, hmembers]

end

end Json

end ScriptWorker
