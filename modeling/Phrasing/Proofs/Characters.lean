/-
  Phrasing/Proofs/Characters.lean
  ===============================
  **The characters of a written value.**

  Marks, names, numbers and escapes are printable ASCII, and so is everything in a
  layout that escapes the rest.  Any other character is a line break that the
  layout asks for or stands in a string of the value as it stands in the text.
-/
import Phrasing.Proofs.Written

namespace Phrasing

/-! ### Printable ASCII -/

def CodePoint.IsPlain (c : CodePoint) : Prop := 0x20 ≤ c.val ∧ c.val ≤ 0x7E

instance (c : CodePoint) : Decidable c.IsPlain := inferInstanceAs (Decidable (_ ∧ _))

/-- Text of printable ASCII. -/
def Text.IsPlain (t : Text) : Prop := ∀ c ∈ t, c.IsPlain

instance (t : Text) : Decidable t.IsPlain := inferInstanceAs (Decidable (∀ c ∈ t, _))

namespace Text

theorem isPlain_digits {digits : List Nat} (h : ∀ d ∈ digits, d < 10) :
    Text.IsPlain (digits.map digitCodePoint) := by
  have hdigit : ∀ d < 10, (digitCodePoint d).IsPlain := by decide
  intro c hc
  obtain ⟨d, hd, rfl⟩ := List.mem_map.mp hc
  exact hdigit d (h d hd)

theorem isPlain_hexDigits (width n : Nat) : (hexDigits width n).IsPlain := by
  have hdigit : ∀ d < 16, (CodePoint.ofChar (Nat.digitChar d)).IsPlain := by decide
  induction width generalizing n with
  | zero => exact fun c hc => nomatch hc
  | succ width ih =>
    refine List.forall_mem_append.mpr ⟨ih (n / 16), ?_⟩
    exact List.forall_mem_singleton.mpr (hdigit (n % 16) (Nat.mod_lt n (by decide)))

end Text

namespace Json

theorem isPlain_fractionText {digits : List Nat} (h : ∀ d ∈ digits, d < 10) :
    (fractionText digits).IsPlain := by
  cases digits with
  | nil => exact fun c hc => nomatch hc
  | cons d rest => exact List.forall_mem_cons.mpr ⟨by decide, Text.isPlain_digits h⟩

theorem isPlain_powerText {power : Option (Bool × List Nat)}
    (h : ∀ p ∈ power, ∀ d ∈ p.2, d < 10) : (powerText power).IsPlain := by
  match power with
  | none => exact fun c hc => nomatch hc
  | some (negative, digits) =>
    refine List.forall_mem_cons.mpr ⟨by decide, List.forall_mem_cons.mpr ⟨?_, ?_⟩⟩
    · cases negative <;> decide
    · exact Text.isPlain_digits (h _ rfl)

theorem Numeral.IsWritten.isPlain {n : Numeral} (hn : n.IsWritten) : n.text.IsPlain := by
  refine List.forall_mem_append.mpr ⟨?_, List.forall_mem_append.mpr
    ⟨Text.isPlain_digits hn.wholeDigits, List.forall_mem_append.mpr
      ⟨isPlain_fractionText hn.fractionDigits, isPlain_powerText fun p hp => (hn.power p hp).2⟩⟩⟩
  cases n.negative <;> decide

theorem isPlain_ofInt (n : Int) : (Text.ofInt n).IsPlain := by
  rw [← Numeral.text_ofInt]
  exact (Numeral.isWritten_ofInt n).isPlain

theorem isPlain_renderFloat (x : Double) : (renderFloat x).IsPlain := by
  match x with
  | .nan => exact (by decide : Text.IsPlain "NaN")
  | .infinite true => exact (by decide : Text.IsPlain "-Infinity")
  | .infinite false => exact (by decide : Text.IsPlain "Infinity")
  | .finite negative mantissa exponent =>
    obtain ⟨n, hn, -, htext⟩ := exists_numeral_finiteText negative mantissa exponent
    rw [renderFloat, htext]
    exact hn.isPlain

theorem isPlain_unicodeEscape (n : Nat) : (unicodeEscape n).IsPlain :=
  List.forall_mem_cons.mpr ⟨by decide, List.forall_mem_cons.mpr
    ⟨by decide, Text.isPlain_hexDigits 4 n⟩⟩

/-! ### Characters that a layout writes -/

mutual

/-- The strings in a value, its keys included. -/
def strings : Json → List Text
  | .str t => [t]
  | .arr items => itemStrings items
  | .obj fields => fieldStrings fields
  | _ => []

def itemStrings : List Json → List Text
  | [] => []
  | v :: rest => v.strings ++ itemStrings rest

def fieldStrings : List (Text × Json) → List Text
  | [] => []
  | (key, v) :: rest => key :: (v.strings ++ fieldStrings rest)

end

/-- What a layout may write for a value with such strings. -/
inductive MayWrite (layout : Layout) (strings : List Text) (c : CodePoint) : Prop where
  | plain (h : c.IsPlain)
  | lineBreak (hindent : layout.indent ≠ none) (h : c = '\n')
  | inside (hall : layout.asciiOnly = false) (hlow : 0x20 ≤ c.val) {t : Text} (ht : t ∈ strings)
      (h : c ∈ t)

section MayWrite

variable {layout : Layout} {written : List Text}

/-- Every character of the text may be written. -/
def Writes (layout : Layout) (written : List Text) (t : Text) : Prop :=
  ∀ c ∈ t, MayWrite layout written c

theorem Writes.append {s t : Text} (hs : Writes layout written s) (ht : Writes layout written t) :
    Writes layout written (s ++ t) :=
  List.forall_mem_append.mpr ⟨hs, ht⟩

theorem writes_of_isPlain {t : Text} (h : t.IsPlain) : Writes layout written t :=
  fun c hc => .plain (h c hc)

theorem writes_escape {t : Text} (ht : t ∈ written) {c : CodePoint} (hc : c ∈ t) :
    Writes layout written (escape layout.asciiOnly c) := by
  have hletters : ∀ letter ∈ ("\"\\nrtfb" : Text), Text.IsPlain [('\\' : CodePoint), letter] := by
    decide
  rcases escape_cases layout.asciiOnly c with
    ⟨letter, hletter, -, heq⟩ | ⟨-, heq⟩ | ⟨-, heq⟩ | ⟨-, -, hlow, hascii, heq⟩
  · rw [heq]
    exact writes_of_isPlain (hletters letter hletter)
  · rw [heq]
    exact writes_of_isPlain (isPlain_unicodeEscape _)
  · rw [heq]
    exact (writes_of_isPlain (isPlain_unicodeEscape _)).append
      (writes_of_isPlain (isPlain_unicodeEscape _))
  · rw [heq]
    refine List.forall_mem_singleton.mpr ?_
    cases hflag : layout.asciiOnly with
    | true => exact .plain ⟨hlow, Nat.le_of_lt_succ (hascii hflag)⟩
    | false => exact .inside hflag hlow ht hc

theorem writes_renderString {t : Text} (ht : t ∈ written) :
    Writes layout written (renderString layout.asciiOnly t) := by
  have hquote : Writes layout written "\"" := writes_of_isPlain (by decide)
  have hinside : Writes layout written (t.flatMap (escape layout.asciiOnly)) := by
    intro c hc
    obtain ⟨d, hd, hc⟩ := List.mem_flatMap.mp hc
    exact writes_escape ht hd c hc
  exact (hquote.append hinside).append hquote

theorem writes_lineBreak (level : Nat) : Writes layout written (layout.lineBreak level) := by
  unfold Layout.lineBreak
  split
  · exact fun c hc => nomatch hc
  · rename_i width hindent
    have hsome : layout.indent ≠ none := by
      rw [hindent]
      exact Option.some_ne_none _
    refine List.forall_mem_cons.mpr ⟨.lineBreak hsome rfl, fun c hc => ?_⟩
    rw [List.eq_of_mem_replicate hc]
    exact .plain (by decide)

theorem writes_separator (level : Nat) : Writes layout written (layout.separator level) := by
  unfold Layout.separator
  split
  · exact writes_of_isPlain (by decide : Text.IsPlain ", ")
  · exact List.forall_mem_cons.mpr ⟨.plain (by decide), writes_lineBreak level⟩

mutual

theorem writes_render (level : Nat) :
    ∀ v : Json, v.strings ⊆ written → Writes layout written (v.render layout level)
  | .null, _ => writes_of_isPlain (by decide : Text.IsPlain "null")
  | .bool true, _ => writes_of_isPlain (by decide : Text.IsPlain "true")
  | .bool false, _ => writes_of_isPlain (by decide : Text.IsPlain "false")
  | .int n, _ => writes_of_isPlain (isPlain_ofInt n)
  | .float x, _ => writes_of_isPlain (isPlain_renderFloat x)
  | .str _, h => writes_renderString (h List.mem_cons_self)
  | .arr [], _ => writes_of_isPlain (by decide : Text.IsPlain "[]")
  | .arr (v :: items), h => by
    obtain ⟨hv, hrest⟩ := List.append_subset.mp h
    have hopen : Writes layout written "[" := writes_of_isPlain (by decide)
    have hclose : Writes layout written "]" := writes_of_isPlain (by decide)
    have hfirst := (hopen.append (writes_lineBreak (level + 1))).append
      (writes_render (level + 1) v hv)
    exact ((hfirst.append (writes_renderItems (level + 1) items hrest)).append
      (writes_lineBreak level)).append hclose
  | .obj [], _ => writes_of_isPlain (by decide : Text.IsPlain "\x7b\x7d")
  | .obj ((key, v) :: fields), h => by
    obtain ⟨hkey, hmore⟩ := List.cons_subset.mp h
    obtain ⟨hv, hrest⟩ := List.append_subset.mp hmore
    have hopen : Writes layout written "\x7b" := writes_of_isPlain (by decide)
    have hcolon : Writes layout written ": " := writes_of_isPlain (by decide)
    have hclose : Writes layout written "\x7d" := writes_of_isPlain (by decide)
    have hfirst := (((hopen.append (writes_lineBreak (level + 1))).append
      (writes_renderString hkey)).append hcolon).append (writes_render (level + 1) v hv)
    exact ((hfirst.append (writes_renderFields (level + 1) fields hrest)).append
      (writes_lineBreak level)).append hclose

theorem writes_renderItems (level : Nat) :
    ∀ items : List Json, itemStrings items ⊆ written →
      Writes layout written (renderItems layout level items)
  | [], _ => fun _ hc => nomatch hc
  | v :: items, h => by
    obtain ⟨hv, hrest⟩ := List.append_subset.mp h
    exact ((writes_separator level).append (writes_render level v hv)).append
      (writes_renderItems level items hrest)

theorem writes_renderFields (level : Nat) :
    ∀ fields : List (Text × Json), fieldStrings fields ⊆ written →
      Writes layout written (renderFields layout level fields)
  | [], _ => fun _ hc => nomatch hc
  | (key, v) :: fields, h => by
    obtain ⟨hkey, hmore⟩ := List.cons_subset.mp h
    obtain ⟨hv, hrest⟩ := List.append_subset.mp hmore
    have hcolon : Writes layout written ": " := writes_of_isPlain (by decide)
    exact ((((writes_separator level).append (writes_renderString hkey)).append hcolon).append
      (writes_render level v hv)).append (writes_renderFields level fields hrest)

end

end MayWrite

/-- A layout on one line that escapes everything else writes printable ASCII, whatever the value. -/
theorem isPlain_write_asciiLine (v : Json) : (v.write .asciiLine).IsPlain := by
  intro c hc
  cases writes_render 0 v (List.Subset.refl v.strings) c hc with
  | plain h => exact h
  | lineBreak hindent => exact absurd rfl hindent
  | inside hall => exact absurd hall (by decide)

example : (Json.str "a\n\u2028😀").write .asciiLine = "\"a\\n\\u2028\\ud83d\\ude00\"" := by
  decide

mutual

theorem isScalar_of_mem_strings : ∀ v : Json, v.Legible → ∀ t ∈ v.strings, t.IsScalar
  | .null, _ | .bool _, _ | .int _, _ | .float _, _ => fun _ ht => nomatch ht
  | .str _, h => List.forall_mem_singleton.mpr h
  | .arr items, h => isScalar_of_mem_itemStrings items h
  | .obj fields, h => isScalar_of_mem_fieldStrings fields h.2

theorem isScalar_of_mem_itemStrings :
    ∀ items : List Json, LegibleItems items → ∀ t ∈ itemStrings items, t.IsScalar
  | [], _ => fun _ ht => nomatch ht
  | v :: rest, h => List.forall_mem_append.mpr
    ⟨isScalar_of_mem_strings v h.1, isScalar_of_mem_itemStrings rest h.2⟩

theorem isScalar_of_mem_fieldStrings :
    ∀ fields : List (Text × Json), LegibleFields fields → ∀ t ∈ fieldStrings fields, t.IsScalar
  | [], _ => fun _ ht => nomatch ht
  | (_, v) :: rest, h => List.forall_mem_cons.mpr ⟨h.1, List.forall_mem_append.mpr
    ⟨isScalar_of_mem_strings v h.2.1, isScalar_of_mem_fieldStrings rest h.2.2⟩⟩

end

end Json

end Phrasing
