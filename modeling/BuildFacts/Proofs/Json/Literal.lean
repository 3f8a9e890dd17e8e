import BuildFacts.Json.Printer
import BuildFacts.Json.StringLiteral

/-!
# Printed strings

A printed string is a literal that closes and whose text is the string
(`scan_printed`, `text_printed`).  Most characters are a piece of their own in
it; a control character without a short escape is a unit.
-/

namespace BuildFacts.Json.StringLiteral

/-- The control characters that have a short escape. -/
def shortControls : List Char :=
  ['\x08', '\x0c', '\n', '\r', '\t']

/-- The piece that a character is printed as. -/
def pieceOf (c : Char) : Piece :=
  if c.toNat < 0x20 ∧ c ∉ shortControls then .unit c.toNat else .char c

/-- The literal that a text is printed as. -/
def printed (text : String) : StringLiteral :=
  ⟨text.toList.map pieceOf, .closed⟩

/-! ## Scanning what was printed -/

theorem hexNumber?_hexDigit :
    ∀ n < 0x20, hexNumber? ['0', '0', hexDigit (n / 16), hexDigit (n % 16)] = some n := by
  decide

theorem scan_short {letter c : Char} (hletter : letter ≠ 'u') (h : escaped? letter = some c)
    (rest : List Char) : scan ('\\' :: letter :: rest) = push (.char c) (scan rest) := by
  rw [scan, h]
  · exact fun _ _ _ _ _ hu => absurd hu hletter
  · exact hletter

theorem scan_unit {a b c d : Char} {n : Nat} (h : hexNumber? [a, b, c, d] = some n)
    (rest : List Char) :
    scan ('\\' :: 'u' :: a :: b :: c :: d :: rest) = push (.unit n) (scan rest) := by
  rw [scan, h]

theorem scan_plain {c : Char} (hquote : c ≠ '"') (hbackslash : c ≠ '\\') (hc : ¬c.toNat < 0x20)
    (rest : List Char) : scan (c :: rest) = push (.char c) (scan rest) := by
  rw [scan, if_neg hc]
  · exact hquote
  · exact fun _ _ _ _ _ h => absurd h hbackslash
  · exact fun _ h => absurd h hbackslash
  · exact fun _ _ h => absurd h hbackslash
  · exact fun h => absurd h hbackslash

theorem scan_escapeChar (c : Char) (rest : List Char) :
    scan (escapeChar c ++ rest) = push (pieceOf c) (scan rest) := by
  unfold escapeChar
  -- Seven characters have a letter of their own.
  iterate 7
    split
    · subst_vars
      exact scan_short (by decide) rfl rest
  split
  · rename_i hcontrol
    rw [pieceOf, if_pos ⟨hcontrol, by simp [shortControls, *]⟩]
    exact scan_unit (hexNumber?_hexDigit c.toNat hcontrol) rest
  · rename_i hquote hbackslash _ _ _ _ _ hcontrol
    rw [pieceOf, if_neg fun h => hcontrol h.1]
    exact scan_plain hquote hbackslash hcontrol rest

theorem scan_printed (text : String) (rest : List Char) :
    scan (text.toList.flatMap escapeChar ++ '"' :: rest) = (printed text, rest) := by
  unfold printed
  induction text.toList with
  | nil => rfl
  | cons c text ih =>
    rw [List.flatMap_cons, List.append_assoc, scan_escapeChar, ih]
    rfl

/-! ## The text of what was printed -/

theorem textOf_unit {n : Nat} (h : n < 0x20) (pieces : List Piece) :
    textOf .closed (.unit n :: pieces) = (Char.ofNat n :: ·) <$> textOf .closed pieces := by
  have htrailing : isTrailing n = false := by simp [isTrailing]; omega
  have hleading : isLeading n = false := by simp [isLeading]; omega
  match pieces with
  | [] => simp [textOf, htrailing, hleading]
  | .char c :: rest => simp [textOf, htrailing, hleading]
  | .unit m :: rest => simp [textOf, htrailing, hleading]

theorem textOf_pieceOf (c : Char) (pieces : List Piece) :
    textOf .closed (pieceOf c :: pieces) = (c :: ·) <$> textOf .closed pieces := by
  unfold pieceOf
  split
  · rename_i hcontrol
    rw [textOf_unit hcontrol.1, Char.ofNat_toNat]
  · rw [textOf]

theorem text_printed (text : String) : (printed text).text = .ok text := by
  have htext : textOf .closed (text.toList.map pieceOf) = .ok text.toList := by
    induction text.toList with
    | nil => rfl
    | cons c text ih =>
      rw [List.map_cons, textOf_pieceOf, ih]
      rfl
  rw [StringLiteral.text, printed, htext]
  exact congrArg Except.ok String.ofList_toList

end BuildFacts.Json.StringLiteral
