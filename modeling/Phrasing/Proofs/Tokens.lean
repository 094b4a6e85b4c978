/-
  Phrasing/Proofs/Tokens.lean
  ===========================
  **What is written is cut into the right tokens.**

  Cutting goes from left to right and keeps no state but the offset, so a text
  that is a concatenation is cut piece by piece.  A piece is cut the same way
  whatever stands before it; what stands after it matters to numbers alone, which
  end where no digit, point or exponent follows.
-/
import Phrasing.Json.Token
import Phrasing.Json.Writer
import Phrasing.Proofs.Digits

namespace Phrasing.Json

/-! ### Strings -/

theorem hexNumber?_hexDigits {n : Nat} (h : n < 0x10000) :
    ∃ a b c d, hexDigits 4 n = [a, b, c, d] ∧ hexNumber? a b c d = some n := by
  refine ⟨hexDigit (n / 16 / 16 / 16), hexDigit (n / 16 / 16), hexDigit (n / 16), hexDigit n,
    rfl, ?_⟩
  rw [hexNumber?, hexValue?_hexDigit, hexValue?_hexDigit, hexValue?_hexDigit, hexValue?_hexDigit]
  simp only [Option.pure_def, Option.bind_eq_bind, Option.bind_some, Option.some.injEq]
  omega

@[simp] theorem length_unicodeEscape (n : Nat) : (unicodeEscape n).length = 6 := rfl

theorem scanString_unicodeEscape {n : Nat} (h : n < 0x10000) (start offset : Nat)
    (units : List Glyph) {rest : Text} (hrest : rest ≠ []) :
    scanString start offset units (unicodeEscape n ++ rest) =
      scanString start (offset + 6) (pushEscape units n) rest := by
  obtain ⟨a, b, c, d, hdigits, hnumber⟩ := hexNumber?_hexDigits h
  obtain ⟨next, tail, rfl⟩ := List.exists_cons_of_ne_nil hrest
  have hbackslash : ('\\' : CodePoint) ≠ '"' := by decide
  rw [unicodeEscape, hdigits]
  simp only [List.cons_append, List.nil_append]
  rw [scanString.eq_def]
  dsimp only
  rw [if_neg hbackslash, if_pos rfl, if_pos rfl, hnumber]

theorem pushEscape_of_not_low {n : Nat} (h : ¬ (0xDC00 ≤ n ∧ n ≤ 0xDFFF)) (units : List Glyph) :
    pushEscape units n = .escaped n :: units := by
  cases units with
  | nil => rfl
  | cons g before =>
    cases g with
    | plain c => rfl
    | escaped high =>
      rw [pushEscape, if_neg]
      rintro ⟨-, -, hlow⟩
      exact h hlow

theorem pushEscape_surrogates {c : CodePoint} (h : 0x10000 ≤ c.val) (units : List Glyph) :
    pushEscape (pushEscape units c.surrogates.1) c.surrogates.2 = .plain c :: units := by
  have hlt := c.isLt
  have hhigh : ¬ (0xDC00 ≤ c.surrogates.1 ∧ c.surrogates.1 ≤ 0xDFFF) := by
    simp only [CodePoint.surrogates]
    omega
  have hpair : 0xD800 ≤ c.surrogates.1 ∧ c.surrogates.1 ≤ 0xDBFF ∧
      0xDC00 ≤ c.surrogates.2 ∧ c.surrogates.2 ≤ 0xDFFF := by
    simp only [CodePoint.surrogates]
    omega
  have hback : CodePoint.ofSurrogates c.surrogates.1 c.surrogates.2 = c := by
    have hval : 0x10000 + (c.surrogates.1 - 0xD800) * 0x400 + (c.surrogates.2 - 0xDC00) =
        c.val := by
      simp only [CodePoint.surrogates]
      omega
    unfold CodePoint.ofSurrogates
    rw [dif_pos (by omega)]
    exact CodePoint.ext_val hval
  rw [pushEscape_of_not_low hhigh, pushEscape, if_pos hpair, hback]

/-- The forms in which a code point is written inside a string. -/
theorem escape_cases (asciiOnly : Bool) (c : CodePoint) :
    (∃ letter ∈ ("\"\\nrtfb" : Text), letterEscape? letter = some c ∧
      escape asciiOnly c = [('\\' : CodePoint), letter]) ∨
    (c.val < 0x10000 ∧ escape asciiOnly c = unicodeEscape c.val) ∨
    (0x10000 ≤ c.val ∧
      escape asciiOnly c = unicodeEscape c.surrogates.1 ++ unicodeEscape c.surrogates.2) ∨
    (c ≠ '"' ∧ c ≠ '\\' ∧ 0x20 ≤ c.val ∧ (asciiOnly = true → c.val < 0x7F) ∧
      escape asciiOnly c = [c]) := by
  by_cases hquote : c = '"'
  · subst hquote
    exact Or.inl ⟨'"', by decide, rfl, rfl⟩
  by_cases hbackslash : c = '\\'
  · subst hbackslash
    exact Or.inl ⟨'\\', by decide, rfl, rfl⟩
  by_cases hline : c = '\n'
  · subst hline
    exact Or.inl ⟨'n', by decide, rfl, rfl⟩
  by_cases hreturn : c = '\r'
  · subst hreturn
    exact Or.inl ⟨'r', by decide, rfl, rfl⟩
  by_cases htab : c = '\t'
  · subst htab
    exact Or.inl ⟨'t', by decide, rfl, rfl⟩
  by_cases hfeed : c = '\u000C'
  · subst hfeed
    exact Or.inl ⟨'f', by decide, rfl, rfl⟩
  by_cases hback : c = '\u0008'
  · subst hback
    exact Or.inl ⟨'b', by decide, rfl, rfl⟩
  rw [escape, if_neg hquote, if_neg hbackslash, if_neg hline, if_neg hreturn, if_neg htab,
    if_neg hfeed, if_neg hback]
  refine Or.inr ?_
  by_cases hcontrol : c.val < 0x20
  · rw [if_pos hcontrol]
    exact Or.inl ⟨by omega, rfl⟩
  rw [if_neg hcontrol]
  split
  · split
    · rename_i hplane
      exact Or.inl ⟨hplane, rfl⟩
    · rename_i hplane
      exact Or.inr (Or.inl ⟨by omega, rfl⟩)
  · rename_i hplain
    have hascii : asciiOnly = true → c.val < 0x7F := by
      rintro rfl
      simpa using hplain
    exact Or.inr (Or.inr ⟨hquote, hbackslash, by omega, hascii, rfl⟩)

/-- A code point is read from its escape as one unit. -/
theorem scanString_escape {c : CodePoint} (h : c.IsScalar) (asciiOnly : Bool)
    (start offset : Nat) (units : List Glyph) {rest : Text} (hrest : rest ≠ []) :
    ∃ g : Glyph, g.codePoint = c ∧
      scanString start offset units (escape asciiOnly c ++ rest) =
        scanString start (offset + (escape asciiOnly c).length) (g :: units) rest := by
  have hbackslash : ('\\' : CodePoint) ≠ '"' := by decide
  rcases escape_cases asciiOnly c with
    ⟨letter, hletter, hc, heq⟩ | ⟨hplane, heq⟩ | ⟨hplane, heq⟩ | ⟨hquote, hslash, hprint, -, heq⟩
  · have hnumbered : letter ≠ 'u' := by
      rintro rfl
      exact absurd hletter (by decide)
    refine ⟨.plain c, rfl, ?_⟩
    rw [heq, List.cons_append, List.cons_append, List.nil_append, scanString.eq_def]
    dsimp only
    rw [if_neg hbackslash, if_pos rfl, if_neg hnumbered, hc]
    rfl
  · have hno : c.isSurrogate = false := h
    have hlow : ¬ (0xDC00 ≤ c.val ∧ c.val ≤ 0xDFFF) := by
      simp only [CodePoint.isSurrogate, Bool.and_eq_false_iff, decide_eq_false_iff_not] at hno
      omega
    refine ⟨.escaped c.val, ?_, ?_⟩
    · rw [Glyph.codePoint, CodePoint.ofNat?, dif_pos c.isLt]
      rfl
    · rw [heq, scanString_unicodeEscape hplane _ _ _ hrest, pushEscape_of_not_low hlow,
        length_unicodeEscape]
  · have hlt := c.isLt
    have hhigh : c.surrogates.1 < 0x10000 := by
      simp only [CodePoint.surrogates]
      omega
    have hlow : c.surrogates.2 < 0x10000 := by
      simp only [CodePoint.surrogates]
      omega
    have hsecond : unicodeEscape c.surrogates.2 ++ rest ≠ [] := List.cons_ne_nil _ _
    refine ⟨.plain c, rfl, ?_⟩
    rw [heq, List.append_assoc, scanString_unicodeEscape hhigh _ _ _ hsecond,
      scanString_unicodeEscape hlow _ _ _ hrest, pushEscape_surrogates hplane,
      List.length_append, length_unicodeEscape, length_unicodeEscape, Nat.add_assoc]
  · refine ⟨.plain c, rfl, ?_⟩
    rw [heq, List.cons_append, List.nil_append, scanString.eq_def]
    dsimp only
    rw [if_neg hquote, if_neg hslash, if_neg (by omega)]
    rfl

theorem scanString_flatMap {t : Text} (h : t.IsScalar) (asciiOnly : Bool)
    (start offset : Nat) (units : List Glyph) (rest : Text) :
    scanString start offset units (t.flatMap (escape asciiOnly) ++ ('"' : CodePoint) :: rest) =
      .ok (units.reverse.map Glyph.codePoint ++ t,
        offset + (t.flatMap (escape asciiOnly)).length + 1) := by
  induction t generalizing offset units with
  | nil =>
    rw [List.flatMap_nil, List.nil_append, scanString.eq_def]
    dsimp only
    rw [if_pos rfl, List.append_nil]
    rfl
  | cons c tail ih =>
    have htail : Text.IsScalar tail := fun d hd => h d (List.mem_cons_of_mem c hd)
    have hmore : tail.flatMap (escape asciiOnly) ++ ('"' : CodePoint) :: rest ≠ [] := by simp
    obtain ⟨g, hg, hstep⟩ :=
      scanString_escape (h c List.mem_cons_self) asciiOnly start offset units hmore
    rw [List.flatMap_cons, List.append_assoc, hstep, ih htail, List.reverse_cons, List.map_append,
      List.map_singleton, hg, List.append_assoc, List.length_append, Nat.add_assoc offset]
    rfl

/-! ### Numbers -/

/-- Whether a text, after a row of digits, does not continue it. -/
def EndsDigits (rest : Text) : Prop := ∀ c ∈ rest.head?, c.asciiDigit? = none

/-- Whether a text, after a number, does not continue it. -/
def EndsNumber (rest : Text) : Prop :=
  ∀ c ∈ rest.head?, c.asciiDigit? = none ∧ c ≠ '.' ∧ c ≠ 'e' ∧ c ≠ 'E'

theorem endsNumber_nil : EndsNumber [] := fun _ h => nomatch h

theorem EndsNumber.endsDigits {rest : Text} (h : EndsNumber rest) : EndsDigits rest :=
  fun c hc => (h c hc).1

def fractionText : List Nat → Text
  | [] => []
  | d :: digits => '.' :: (d :: digits).map digitCodePoint

def powerText : Option (Bool × List Nat) → Text
  | none => []
  | some (negative, digits) =>
    'e' :: (if negative then '-' else '+') :: digits.map digitCodePoint

/-- A number with its digits in place. -/
def Numeral.text (n : Numeral) : Text :=
  (if n.negative then [('-' : CodePoint)] else []) ++
    (n.whole.map digitCodePoint ++ (fractionText n.fraction ++ powerText n.power))

/-- The number has the form in which numbers are written: something stands before the point, with no
needless zero in front, and an exponent has digits. -/
structure Numeral.IsWritten (n : Numeral) : Prop where
  whole : ∃ d rest, n.whole = d :: rest ∧ (d = 0 → rest = [])
  wholeDigits : ∀ d ∈ n.whole, d < 10
  fractionDigits : ∀ d ∈ n.fraction, d < 10
  power : ∀ p ∈ n.power, p.2 ≠ [] ∧ ∀ d ∈ p.2, d < 10

theorem leadingDigits_cons {c : CodePoint} {d : Nat} (h : c.asciiDigit? = some d) (t : Text) :
    leadingDigits (c :: t) = d :: leadingDigits t := by
  simp [leadingDigits, h]

section AfterNumber

variable {rest : Text}

theorem leadingDigits_of_endsDigits (h : EndsDigits rest) : leadingDigits rest = [] := by
  cases rest with
  | nil => rfl
  | cons c tail =>
    have hc : c.asciiDigit? = none := h c rfl
    simp [leadingDigits, hc]

theorem leadingDigits_map {digits : List Nat} (hdigits : ∀ d ∈ digits, d < 10)
    (h : EndsDigits rest) : leadingDigits (digits.map digitCodePoint ++ rest) = digits := by
  induction digits with
  | nil => exact leadingDigits_of_endsDigits h
  | cons d tail ih =>
    have hd := asciiDigit?_digitCodePoint (hdigits d List.mem_cons_self)
    have htail : ∀ e ∈ tail, e < 10 := fun e he => hdigits e (List.mem_cons_of_mem d he)
    rw [List.map_cons, List.cons_append, leadingDigits_cons hd, ih htail]

theorem fractionDigits_append {digits : List Nat} (hdigits : ∀ d ∈ digits, d < 10)
    (h : EndsDigits rest) (hpoint : ∀ c ∈ rest.head?, c ≠ '.') :
    fractionDigits (fractionText digits ++ rest) = (digits, (fractionText digits).length) := by
  cases digits with
  | nil =>
    cases rest with
    | nil => rfl
    | cons c tail => exact if_neg (hpoint c rfl)
  | cons d tail =>
    have hleading := leadingDigits_map hdigits h
    rw [fractionText, List.cons_append, fractionDigits, if_pos rfl, hleading]
    simp

theorem exponentDigits_append {power : Option (Bool × List Nat)}
    (hpower : ∀ p ∈ power, p.2 ≠ [] ∧ ∀ d ∈ p.2, d < 10) (h : EndsNumber rest) :
    exponentDigits (powerText power ++ rest) = (power, (powerText power).length) := by
  match power with
  | none =>
    cases rest with
    | nil => rfl
    | cons c tail =>
      have hc : ¬ (c = 'e' ∨ c = 'E') := by
        rintro (hlower | hupper)
        · exact (h c rfl).2.2.1 hlower
        · exact (h c rfl).2.2.2 hupper
      rw [powerText, List.nil_append, exponentDigits.eq_def]
      dsimp only
      rw [if_neg hc]
      rfl
  | some (negative, digits) =>
    obtain ⟨hsome, hdigits⟩ := hpower _ rfl
    obtain ⟨d, tail, rfl⟩ := List.exists_cons_of_ne_nil hsome
    have hleading := leadingDigits_map hdigits h.endsDigits
    rw [powerText, List.cons_append, List.cons_append, exponentDigits.eq_def]
    dsimp only
    rw [if_pos (Or.inl rfl)]
    have hplus : (('+' : CodePoint) == '-') = false := by decide
    cases negative with
    | true =>
      rw [if_pos (by decide), List.drop_one, List.tail_cons, hleading]
      simp
    | false =>
      rw [if_pos (by decide), List.drop_one, List.tail_cons, hleading]
      simp [hplus]

end AfterNumber

namespace Numeral

variable {n : Numeral} {rest : Text}

theorem length_text (n : Numeral) :
    n.text.length = (if n.negative then 1 else 0) + n.whole.length +
      (fractionText n.fraction).length + (powerText n.power).length := by
  rw [text, List.length_append, List.length_append, List.length_append, List.length_map,
    Nat.add_assoc, Nat.add_assoc]
  cases n.negative <;> rfl

theorem IsWritten.wholeDigits_append (hn : n.IsWritten) (h : EndsDigits rest) :
    Json.wholeDigits (n.whole.map digitCodePoint ++ rest) = n.whole := by
  obtain ⟨d, tail, hwhole, hzero⟩ := hn.whole
  rw [Json.wholeDigits, leadingDigits_map hn.wholeDigits h, hwhole]
  split
  · rename_i heq
    obtain ⟨rfl, -⟩ := List.cons.inj heq
    rw [hzero rfl]
  · rfl

/-- A written number starts with a digit or with a sign and a digit. -/
theorem IsWritten.exists_head (hn : n.IsWritten) :
    ∃ (d : Nat) (tail : Text), d < 10 ∧
      n.text = if n.negative then ('-' : CodePoint) :: digitCodePoint d :: tail
        else digitCodePoint d :: tail := by
  obtain ⟨d, tail, hwhole, -⟩ := hn.whole
  refine ⟨d, tail.map digitCodePoint ++ (fractionText n.fraction ++ powerText n.power),
    hn.wholeDigits d (hwhole ▸ List.mem_cons_self), ?_⟩
  rw [text, hwhole]
  cases n.negative <;> rfl

theorem IsWritten.text_ne_nil (hn : n.IsWritten) : n.text ≠ [] := by
  obtain ⟨d, tail, -, htext⟩ := hn.exists_head
  rw [htext]
  cases n.negative <;> exact List.cons_ne_nil _ _

theorem endsDigits_powerText (power : Option (Bool × List Nat)) (h : EndsNumber rest) :
    ∀ c ∈ (powerText power ++ rest).head?, c.asciiDigit? = none ∧ c ≠ '.' := by
  match power with
  | none => exact fun c hc => ⟨(h c hc).1, (h c hc).2.1⟩
  | some (negative, digits) =>
    intro c hc
    obtain rfl := Option.some.inj hc
    decide

theorem endsDigits_fractionText (digits : List Nat) (h : EndsDigits rest) :
    EndsDigits (fractionText digits ++ rest) := by
  cases digits with
  | nil => exact h
  | cons d tail =>
    intro c hc
    obtain rfl := Option.some.inj hc
    decide

/-- A written number is cut off as it was written. -/
theorem IsWritten.scanNumeral?_append (hn : n.IsWritten) (h : EndsNumber rest) :
    scanNumeral? (n.text ++ rest) = some (n, n.text.length) := by
  have hpower := endsDigits_powerText n.power h
  have hfraction := endsDigits_fractionText n.fraction fun c hc => (hpower c hc).1
  have hwhole := hn.wholeDigits_append hfraction
  have hsign : ((n.text ++ rest).head? == some ('-' : CodePoint)) = n.negative := by
    obtain ⟨d, tail, hd, htext⟩ := hn.exists_head
    have hplain : ∀ d < 10, digitCodePoint d ≠ '-' := by decide
    rw [htext]
    cases n.negative
    · simpa using hplain d hd
    · simp
  have hbody : (if n.negative then (n.text ++ rest).drop 1 else n.text ++ rest) =
      n.whole.map digitCodePoint ++
        (fractionText n.fraction ++ (powerText n.power ++ rest)) := by
    rw [text]
    cases n.negative <;> simp
  have hdrop : (n.whole.map digitCodePoint ++
      (fractionText n.fraction ++ (powerText n.power ++ rest))).drop n.whole.length =
        fractionText n.fraction ++ (powerText n.power ++ rest) :=
    List.drop_left' (List.length_map ..)
  obtain ⟨d, tail, hdigits, -⟩ := hn.whole
  unfold scanNumeral?
  dsimp only
  rw [hsign, hbody, hwhole, hdigits]
  dsimp only
  rw [← hdigits, hdrop,
    fractionDigits_append hn.fractionDigits (fun c hc => (hpower c hc).1) fun c hc =>
      (hpower c hc).2]
  dsimp only
  rw [List.drop_left, exponentDigits_append hn.power h, length_text]

end Numeral

theorem find?_namedValues_append (head : Text)
    (h : ∀ e ∈ namedValues, head.length ≤ e.1.length ∧ e.1.take head.length ≠ head)
    (rest : Text) :
    namedValues.find? (fun e => Text.startsWith e.1 (head ++ rest)) = none := by
  rw [List.find?_eq_none]
  intro e he hstarts
  obtain ⟨hlength, hne⟩ := h e he
  obtain ⟨after, hafter⟩ := List.isPrefixOf_iff_prefix.mp hstarts
  have htake : (e.1 ++ after).take head.length = e.1.take head.length :=
    List.take_append_of_le_length hlength
  apply hne
  rw [← htake, hafter, List.take_left]

namespace Numeral

variable {n : Numeral} {rest : Text}

theorem IsWritten.find?_namedValues (hn : n.IsWritten) (rest : Text) :
    namedValues.find? (fun e => Text.startsWith e.1 (n.text ++ rest)) = none := by
  have hplain : ∀ d < 10, ∀ e ∈ namedValues,
      1 ≤ e.1.length ∧ e.1.take 1 ≠ [digitCodePoint d] := by decide
  have hsigned : ∀ d < 10, ∀ e ∈ namedValues,
      2 ≤ e.1.length ∧ e.1.take 2 ≠ [('-' : CodePoint), digitCodePoint d] := by decide
  obtain ⟨d, tail, hd, htext⟩ := hn.exists_head
  rw [htext]
  cases n.negative with
  | false => exact find?_namedValues_append [digitCodePoint d] (hplain d hd) (tail ++ rest)
  | true =>
    exact find?_namedValues_append [('-' : CodePoint), digitCodePoint d] (hsigned d hd)
      (tail ++ rest)

theorem IsWritten.scanScalar_append (hn : n.IsWritten) (h : EndsNumber rest)
    (limit : Option Nat) :
    scanScalar limit (n.text ++ rest) = (n.lexeme limit, n.text.length) := by
  rw [scanScalar, hn.find?_namedValues, hn.scanNumeral?_append h]

/-- The number as which an integer is written. -/
def ofInt (n : Int) : Numeral := ⟨n < 0, decimalDigits n.natAbs, [], none⟩

theorem text_ofInt (n : Int) : (ofInt n).text = Text.ofInt n := by
  unfold Text.ofInt
  rw [text, ofInt, Text.ofNat_eq_map]
  by_cases hn : n < 0 <;> simp [hn, fractionText, powerText]

theorem isWritten_ofInt (n : Int) : (ofInt n).IsWritten where
  whole := by
    obtain ⟨d, tail, hdigits⟩ := List.exists_cons_of_ne_nil (decimalDigits_ne_nil n.natAbs)
    refine ⟨d, tail, hdigits, ?_⟩
    rintro rfl
    exact decimalDigits_of_head_zero hdigits
  wholeDigits := fun _ hd => lt_of_mem_decimalDigits hd
  fractionDigits := fun _ hd => nomatch hd
  power := fun _ hp => nomatch hp

/-- An integer that may be read is read as itself. -/
theorem lexeme_ofInt {n : Int} (hn : isLongInteger n = false) :
    (ofInt n).lexeme (some digitLimit) = .scalar (.int n) := by
  have hlong : (decimalDigits n.natAbs).length ≤ digitLimit := by
    rw [length_decimalDigits]
    exact (isLongInteger_eq_false_iff n.natAbs).mp hn
  have hvalue : (if n < 0 then -(n.natAbs : Int) else (n.natAbs : Int)) = n := by omega
  dsimp only [lexeme, ofInt]
  rw [Option.all_some, if_pos (by simpa using hlong), ofDigitValues_decimalDigits]
  simpa using hvalue

/-- A number with a point or an exponent is read as no integer. -/
theorem exists_lexeme (h : n.fraction ≠ [] ∨ n.power ≠ none) :
    ∃ x : Double, ∀ limit, n.lexeme limit = .scalar (.float x) := by
  obtain ⟨negative, whole, fraction, power⟩ := n
  match fraction, power with
  | [], none => exact absurd rfl (h.resolve_left fun hne => hne rfl)
  | [], some _ => exact ⟨_, fun _ => rfl⟩
  | _ :: _, _ => exact ⟨_, fun _ => rfl⟩

end Numeral

end Phrasing.Json
