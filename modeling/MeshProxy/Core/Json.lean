/-
JSON values and the text that a compact encoder makes of them: no white space between tokens, and in a string the quote, the
backslash, the control characters, the angle brackets, the ampersand and the two line separators escaped, as Go's
`encoding/json` does. A number is kept as its literal. A byte of a string that is not UTF-8 is the character U+FFFD here, as
it is for whoever reads the text.
- `encode_printable`: the text has no control character, so it is one line.
-/
import Mathlib.Tactic

namespace MeshProxy.Json

/-- the characters of a number literal -/
def numberChars : List Char := ['+', '-', '.', '0', '1', '2', '3', '4', '5', '6', '7', '8', '9', 'E', 'e']

structure Number where
  literal : List Char
  nonempty : literal ≠ []
  chars : ∀ c ∈ literal, c ∈ numberChars

inductive Value where
  | null
  | bool (b : Bool)
  | number (n : Number)
  | string (s : List Char)
  | array (xs : List Value)
  | object (fields : List (List Char × Value))

/-- a hexadecimal digit -/
def hexDigit (d : ℕ) : Char := if d < 10 then Char.ofNat (0x30 + d) else Char.ofNat (0x57 + d)

/-- the escape by code point -/
def escapeCode (c : Char) : List Char :=
  ['\\', 'u'] ++ (List.range 4).map fun i => hexDigit (c.toNat / 16 ^ (3 - i) % 16)

/-- the characters with an escape of their own -/
def shortEscapes : List (Char × Char) :=
  [('"', '"'), ('\\', '\\'), (Char.ofNat 0x08, 'b'), (Char.ofNat 0x0C, 'f'), ('\n', 'n'), ('\r', 'r'), ('\t', 't')]

def escapeChar (c : Char) : List Char :=
  match shortEscapes.lookup c with
  | some e => ['\\', e]
  | none =>
    if c.toNat < 0x20 ∨ c = '<' ∨ c = '>' ∨ c = '&' ∨ c.toNat = 0x2028 ∨ c.toNat = 0x2029 then escapeCode c else [c]

def quote (s : List Char) : List Char := '"' :: s.flatMap escapeChar ++ ['"']

mutual

/-- the text of a value -/
def Value.encode : Value → List Char
  | .null => ['n', 'u', 'l', 'l']
  | .bool b => if b then ['t', 'r', 'u', 'e'] else ['f', 'a', 'l', 's', 'e']
  | .number n => n.literal
  | .string s => quote s
  | .array [] => ['[', ']']
  | .array (x :: xs) => '[' :: x.encode ++ encodeElems xs
  | .object [] => ['{', '}']
  | .object ((k, v) :: fields) => '{' :: quote k ++ ':' :: v.encode ++ encodeFields fields

/-- the elements behind the first one -/
def encodeElems : List Value → List Char
  | [] => [']']
  | x :: xs => ',' :: x.encode ++ encodeElems xs

def encodeFields : List (List Char × Value) → List Char
  | [] => ['}']
  | (k, v) :: fields => ',' :: quote k ++ ':' :: v.encode ++ encodeFields fields

end

/-! ## One line -/

/-- no control character -/
def Printable (s : List Char) : Prop := ∀ c ∈ s, 0x20 ≤ c.toNat

instance : DecidablePred Printable := fun s => List.decidableBAll _ s

theorem printable_append {s t : List Char} : Printable (s ++ t) ↔ Printable s ∧ Printable t := by
  simp only [Printable, List.mem_append, or_imp, forall_and]

theorem printable_cons {c : Char} {s : List Char} : Printable (c :: s) ↔ 0x20 ≤ c.toNat ∧ Printable s := by
  simp only [Printable, List.mem_cons, forall_eq_or_imp]

theorem printable_hexDigit {d : ℕ} (h : d < 16) : 0x20 ≤ (hexDigit d).toNat := by
  have hall : ∀ d < 16, 0x20 ≤ (hexDigit d).toNat := by decide
  exact hall d h

theorem printable_escapeCode (c : Char) : Printable (escapeCode c) := by
  refine printable_append.2 ⟨by decide, fun x hx => ?_⟩
  obtain ⟨i, -, rfl⟩ := List.mem_map.1 hx
  exact printable_hexDigit (Nat.mod_lt _ (by norm_num))

theorem printable_shortEscapes : ∀ e ∈ shortEscapes, 0x20 ≤ e.2.toNat := by decide

theorem printable_escapeChar (c : Char) : Printable (escapeChar c) := by
  unfold escapeChar
  split
  · rename_i e hlookup
    obtain ⟨pre, post, hmem, -⟩ := List.lookup_eq_some_iff.1 hlookup
    have hin : (c, e) ∈ shortEscapes := by
      rw [hmem]
      exact List.mem_append_right pre List.mem_cons_self
    have he : 0x20 ≤ e.toNat := printable_shortEscapes (c, e) hin
    exact printable_cons.2 ⟨by decide, printable_cons.2 ⟨he, by simp [Printable]⟩⟩
  · split_ifs with hescaped
    · exact printable_escapeCode c
    · exact printable_cons.2 ⟨Nat.le_of_not_lt fun h => hescaped (.inl h), by simp [Printable]⟩

theorem printable_quote (s : List Char) : Printable (quote s) := by
  refine printable_append.2 ⟨printable_cons.2 ⟨by decide, ?_⟩, by decide⟩
  induction s with
  | nil => simp [Printable]
  | cons c s ih =>
    rw [List.flatMap_cons]
    exact printable_append.2 ⟨printable_escapeChar c, ih⟩

theorem printable_number (n : Number) : Printable n.literal := by
  have hall : Printable numberChars := by decide
  exact fun c hc => hall c (n.chars c hc)

mutual

/-- **The text of a value has no control character.** -/
theorem encode_printable : ∀ v : Value, Printable v.encode
  | .null => by decide
  | .bool true => by decide
  | .bool false => by decide
  | .number n => printable_number n
  | .string s => printable_quote s
  | .array [] => by decide
  | .array (x :: xs) =>
    printable_append.2 ⟨printable_cons.2 ⟨by decide, encode_printable x⟩, encodeElems_printable xs⟩
  | .object [] => by decide
  | .object ((k, v) :: fields) =>
    printable_append.2 ⟨printable_append.2 ⟨printable_cons.2 ⟨by decide, printable_quote k⟩,
      printable_cons.2 ⟨by decide, encode_printable v⟩⟩, encodeFields_printable fields⟩

theorem encodeElems_printable : ∀ xs : List Value, Printable (encodeElems xs)
  | [] => by decide
  | x :: xs => printable_append.2 ⟨printable_cons.2 ⟨by decide, encode_printable x⟩, encodeElems_printable xs⟩

theorem encodeFields_printable : ∀ fields : List (List Char × Value), Printable (encodeFields fields)
  | [] => by decide
  | (k, v) :: fields =>
    printable_append.2 ⟨printable_append.2 ⟨printable_cons.2 ⟨by decide, printable_quote k⟩,
      printable_cons.2 ⟨by decide, encode_printable v⟩⟩, encodeFields_printable fields⟩

end

end MeshProxy.Json
