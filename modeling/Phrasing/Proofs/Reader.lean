/-
  Phrasing/Proofs/Reader.lean
  ===========================
  **What the reader of JSON delivers, and where it stops.**

  Every token but the last was scanned somewhere in the text, so what holds of
  all that can be scanned holds of the tokens.  From scalars the machine builds
  values, which have what their scalars have: no key in them is given twice, and
  no integer is too long to be written.  It stops at an integer only if it has too
  many digits, and these stand in the text, one behind the other.
-/
import Mathlib.Data.List.TakeWhile
import Phrasing.Json.Reader
import Phrasing.Proofs.Inverse
import Phrasing.Proofs.Written

namespace Phrasing

namespace Json

/-! ### Tokens stand in the text -/

/-- The lexeme is the end of the text or was scanned at the head of what follows somewhere in it. -/
def ScannedIn (limit : Option Nat) (t : Text) (lexeme : Lexeme) : Prop :=
  lexeme = .finish ∨
    ∃ offset c rest, c :: rest <:+ t ∧ lexeme = (scanLexeme limit offset c rest).1

theorem ScannedIn.cons {limit : Option Nat} {t : Text} {lexeme : Lexeme}
    (h : ScannedIn limit t lexeme) (c : CodePoint) : ScannedIn limit (c :: t) lexeme := by
  rcases h with hfinish | ⟨offset, d, rest, hsuffix, hscan⟩
  · exact Or.inl hfinish
  · exact Or.inr ⟨offset, d, rest, hsuffix.trans (List.suffix_cons c t), hscan⟩

theorem scannedIn_of_mem_tokensFrom {limit : Option Nat} {offset skip : Nat} {found : List Token}
    {t : Text} {token : Token} (h : token ∈ tokensFrom limit offset skip found t) :
    token ∈ found ∨ ScannedIn limit t token.lexeme := by
  induction t generalizing offset skip found with
  | nil =>
    rw [tokensFrom, List.mem_reverse] at h
    rcases List.mem_cons.mp h with rfl | hfound
    · exact Or.inr (Or.inl rfl)
    · exact Or.inl hfound
  | cons c rest ih =>
    cases skip with
    | succ skip =>
      rw [tokensFrom] at h
      exact (ih h).imp_right fun hscanned => hscanned.cons c
    | zero =>
      rw [tokensFrom] at h
      split at h
      · exact (ih h).imp_right fun hscanned => hscanned.cons c
      · dsimp only at h
        have hhere : ∀ others : List Token,
            token ∈ (⟨offset, (scanLexeme limit offset c rest).1⟩ : Token) :: others →
            token ∈ others ∨ ScannedIn limit (c :: rest) token.lexeme := by
          intro others hmem
          rcases List.mem_cons.mp hmem with rfl | hothers
          · exact Or.inr (Or.inr ⟨offset, c, rest, List.suffix_rfl, rfl⟩)
          · exact Or.inl hothers
        split at h
        · exact hhere found (List.mem_reverse.mp h)
        · rcases ih h with hmem | hscanned
          · exact hhere found hmem
          · exact Or.inr (hscanned.cons c)

theorem scannedIn_of_mem_tokens {limit : Option Nat} {t : Text} {token : Token}
    (h : token ∈ tokens limit t) : ScannedIn limit t token.lexeme := by
  rcases scannedIn_of_mem_tokensFrom h with hnone | hscanned
  · cases hnone
  · exact hscanned

/-! ### What is read has what its scalars have -/

/-- Whether a property passes from the scalars of a value to the whole. -/
structure Inherited (P : Json → Prop) : Prop where
  text : ∀ t, P (.str t)
  array : ∀ items, (∀ v ∈ items, P v) → P (.arr items)
  empty : P (.obj [])
  insert : ∀ fields key v, P (.obj fields) → P v → P (.obj (Entries.insert fields key v))

section Machine

variable {P : Json → Prop}

def Frame.Holds (P : Json → Prop) : Frame → Prop
  | .array items => ∀ v ∈ items, P v
  | .object fields _ => P (.obj fields)

def Phase.Holds (P : Json → Prop) : Phase → Prop
  | .key fields | .colon fields _ => P (.obj fields)
  | .following v => P v
  | .value | .firstItem | .firstKey => True

def Progress.Holds (P : Json → Prop) : Progress → Prop
  | .more phase stack => phase.Holds P ∧ ∀ frame ∈ stack, frame.Holds P
  | .done v => P v

variable {stack : List Frame} {token : Token} {next : Progress}

theorem holds_beginValue (hP : Inherited P) (hstack : ∀ frame ∈ stack, frame.Holds P)
    (htoken : ∀ v, token.lexeme = .scalar v → P v) (h : beginValue stack token = .ok next) :
    next.Holds P := by
  unfold beginValue at h
  split at h
  case h_1 | h_2 =>
    cases h
    exact ⟨trivial, hstack⟩
  case h_3 t _ =>
    cases h
    exact ⟨hP.text t, hstack⟩
  case h_4 v hscalar =>
    cases h
    exact ⟨htoken v hscalar, hstack⟩
  all_goals cases h

theorem holds_beginKey {fields : List (Text × Json)} (hfields : P (.obj fields))
    (hstack : ∀ frame ∈ stack, frame.Holds P) (h : beginKey fields stack token = .ok next) :
    next.Holds P := by
  unfold beginKey at h
  split at h
  · cases h
    exact ⟨hfields, hstack⟩
  · cases h
  · cases h

theorem holds_continueAfter (hP : Inherited P) {v : Json} (hv : P v)
    (hstack : ∀ frame ∈ stack, frame.Holds P) (h : continueAfter v stack token = .ok next) :
    next.Holds P := by
  unfold continueAfter at h
  split at h
  · cases h
    exact hv
  · cases h
  · rename_i items stack _
    rw [List.forall_mem_cons] at hstack
    have hitems : ∀ w ∈ v :: items, P w := List.forall_mem_cons.mpr ⟨hv, hstack.1⟩
    cases h
    exact ⟨trivial, List.forall_mem_cons.mpr ⟨hitems, hstack.2⟩⟩
  · rename_i items stack _
    rw [List.forall_mem_cons] at hstack
    have hitems : ∀ w ∈ v :: items, P w := List.forall_mem_cons.mpr ⟨hv, hstack.1⟩
    cases h
    refine ⟨hP.array _ ?_, hstack.2⟩
    intro w hw
    exact hitems w (List.mem_reverse.mp hw)
  · rename_i fields key stack _
    rw [List.forall_mem_cons] at hstack
    cases h
    exact ⟨hP.insert fields key v hstack.1 hv, hstack.2⟩
  · rename_i fields key stack _
    rw [List.forall_mem_cons] at hstack
    cases h
    exact ⟨hP.insert fields key v hstack.1 hv, hstack.2⟩
  · cases h

/-- One token keeps what everything so far has. -/
theorem holds_advance (hP : Inherited P) {phase : Phase} (hphase : phase.Holds P)
    (hstack : ∀ frame ∈ stack, frame.Holds P)
    (htoken : ∀ v, token.lexeme = .scalar v → P v)
    (h : advance phase stack token = .ok next) : next.Holds P := by
  cases phase with
  | value => exact holds_beginValue hP hstack htoken h
  | firstItem =>
    have hnone : ∀ v ∈ ([] : List Json), P v := fun _ hv => nomatch hv
    unfold advance at h
    dsimp only at h
    split at h
    · cases h
      exact ⟨hP.array [] hnone, hstack⟩
    · have hopen : (Frame.array []).Holds P := hnone
      exact holds_beginValue hP (List.forall_mem_cons.mpr ⟨hopen, hstack⟩) htoken h
  | firstKey =>
    unfold advance at h
    dsimp only at h
    split at h
    · cases h
      exact ⟨hP.empty, hstack⟩
    · exact holds_beginKey hP.empty hstack h
  | key fields => exact holds_beginKey hphase hstack h
  | colon fields key =>
    unfold advance at h
    dsimp only at h
    split at h
    · cases h
      exact ⟨trivial, List.forall_mem_cons.mpr ⟨hphase, hstack⟩⟩
    · cases h
  | following v => exact holds_continueAfter hP hphase hstack h

theorem holds_assemble (hP : Inherited P) {tokens : List Token} {phase : Phase}
    {stack : List Frame} {v : Json} (hphase : phase.Holds P)
    (hstack : ∀ frame ∈ stack, frame.Holds P)
    (htokens : ∀ token ∈ tokens, ∀ w, token.lexeme = .scalar w → P w)
    (h : assemble phase stack tokens = .ok v) : P v := by
  induction tokens generalizing phase stack with
  | nil => cases h
  | cons token rest ih =>
    rw [List.forall_mem_cons] at htokens
    unfold assemble at h
    split at h
    · cases h
    · rename_i found hdone
      obtain rfl := Except.ok.inj h
      exact holds_advance hP hphase hstack htokens.1 hdone
    · rename_i hmore
      obtain ⟨hphase, hstack⟩ := holds_advance hP hphase hstack htokens.1 hmore
      exact ih hphase hstack htokens.2 h

/-- A scalar is scanned as such, whatever mark was looked for before. -/
theorem scanScalar_of_scanLexeme {limit : Option Nat} {offset : Nat} {c : CodePoint} {rest : Text}
    {v : Json} (h : (scanLexeme limit offset c rest).1 = .scalar v) :
    (scanScalar limit (c :: rest)).1 = .scalar v := by
  unfold scanLexeme at h
  iterate 6
    split at h
    · cases h
  split at h
  · split at h
    · cases h
    · cases h
  · exact h

/-- What all scalars that are scanned have, every value that is read has. -/
theorem holds_of_read (hP : Inherited P)
    (hscalar : ∀ t v, (scanScalar (some digitLimit) t).1 = .scalar v → P v) {t : Text} {v : Json}
    (h : read t = .ok v) : P v := by
  unfold read readWithin at h
  dsimp only at h
  split at h
  · rename_i found hassembled
    obtain rfl := Except.ok.inj h
    split at hassembled
    · cases hassembled
    · have hstart : Phase.value.Holds P := trivial
      have hempty : ∀ frame ∈ ([] : List Frame), frame.Holds P := fun _ hframe => nomatch hframe
      refine holds_assemble hP hstart hempty ?_ hassembled
      intro token htoken w hw
      rcases scannedIn_of_mem_tokens htoken with hfinish | ⟨offset, c, rest, -, hscan⟩
      · rw [hfinish] at hw
        cases hw
      · exact hscalar _ w (scanScalar_of_scanLexeme (hscan.symm.trans hw))
  · cases h
  · cases h

end Machine

/-! ### No key is given twice -/

theorem wellFormedItems_of_forall {items : List Json} (h : ∀ v ∈ items, v.WellFormed) :
    WellFormedItems items := by
  induction items with
  | nil => trivial
  | cons v rest ih =>
    rw [List.forall_mem_cons] at h
    exact ⟨h.1, ih h.2⟩

theorem wellFormed_obj_insert {fields : List (Text × Json)} {v : Json}
    (h : (obj fields).WellFormed) (hv : v.WellFormed) (key : Text) :
    (obj (Entries.insert fields key v)).WellFormed := by
  refine ⟨Entries.wellFormed_insert h.1 key v, ?_⟩
  have hfields := h.2
  clear h
  induction fields with
  | nil => exact ⟨hv, trivial⟩
  | cons e rest ih =>
    obtain ⟨k, w⟩ := e
    unfold Entries.insert
    split
    · exact ⟨hv, hfields.2⟩
    · exact ⟨hfields.1, ih hfields.2⟩

theorem inherited_wellFormed : Inherited WellFormed where
  text _ := trivial
  array _ h := wellFormedItems_of_forall h
  empty := ⟨List.nodup_nil, trivial⟩
  insert _ key _ h hv := wellFormed_obj_insert h hv key

/-- What a scalar is: a value with a name of its own, an integer of the number's digits if there are
not too many, or a floating-point number. -/
theorem scalar_cases {limit : Option Nat} {t : Text} {v : Json}
    (h : (scanScalar limit t).1 = .scalar v) :
    (∃ e ∈ namedValues, v = e.2) ∨
      (∃ n width i, scanNumeral? t = some (n, width) ∧ limit.all (n.whole.length ≤ ·) = true ∧
        v = .int i ∧ i.natAbs = ofDigitValues n.whole) ∨
      ∃ x, v = .float x := by
  unfold scanScalar at h
  split at h
  · rename_i name value hfound
    cases h
    exact Or.inl ⟨_, List.mem_of_find?_eq_some hfound, rfl⟩
  · split at h
    · cases h
    · rename_i n width hnumeral
      unfold Numeral.lexeme at h
      split at h
      · split at h
        · rename_i hshort
          cases h
          refine Or.inr (Or.inl ⟨n, width, _, hnumeral, hshort, rfl, ?_⟩)
          split <;> simp
        · cases h
      · cases h
        exact Or.inr (Or.inr ⟨_, rfl⟩)

/-- **No object that is read has a key twice.** -/
theorem wellFormed_of_read {t : Text} {v : Json} (h : read t = .ok v) : v.WellFormed := by
  refine holds_of_read inherited_wellFormed ?_ h
  intro s w hw
  rcases scalar_cases hw with ⟨e, he, rfl⟩ | ⟨_, _, i, -, -, rfl, -⟩ | ⟨x, rfl⟩
  · have hnamed : ∀ e ∈ namedValues, e.2.WellFormed := by
      simp [namedValues, WellFormed]
    exact hnamed e he
  · trivial
  · trivial

/-! ### No integer that is read is too long to be written -/

theorem hasLongIntegerItem_eq_false {items : List Json}
    (h : ∀ v ∈ items, v.hasLongInteger = false) : hasLongIntegerItem items = false := by
  induction items with
  | nil => rfl
  | cons v rest ih =>
    rw [List.forall_mem_cons] at h
    rw [hasLongIntegerItem, h.1, ih h.2]
    rfl

theorem hasLongIntegerField_insert {fields : List (Text × Json)} {v : Json}
    (h : hasLongIntegerField fields = false) (hv : v.hasLongInteger = false) (key : Text) :
    hasLongIntegerField (Entries.insert fields key v) = false := by
  induction fields with
  | nil =>
    rw [Entries.insert, hasLongIntegerField, hv]
    rfl
  | cons e rest ih =>
    obtain ⟨k, w⟩ := e
    rw [hasLongIntegerField, Bool.or_eq_false_iff] at h
    unfold Entries.insert
    split
    · rw [hasLongIntegerField, hv, h.2]
      rfl
    · rw [hasLongIntegerField, h.1, ih h.2]
      rfl

theorem inherited_short : Inherited fun v => v.hasLongInteger = false where
  text _ := rfl
  array _ h := hasLongIntegerItem_eq_false h
  empty := rfl
  insert _ key _ h hv := hasLongIntegerField_insert h hv key

theorem lt_of_mem_leadingDigits {t : Text} {d : Nat} (h : d ∈ leadingDigits t) : d < 10 := by
  obtain ⟨c, -, hc⟩ := List.mem_filterMap.mp h
  exact asciiDigit?_lt hc

theorem lt_of_mem_wholeDigits {t : Text} {d : Nat} (h : d ∈ wholeDigits t) : d < 10 := by
  unfold wholeDigits at h
  split at h
  · rw [List.mem_singleton.mp h]
    decide
  · exact lt_of_mem_leadingDigits h

theorem lt_of_mem_whole {t : Text} {n : Numeral} {width : Nat}
    (h : scanNumeral? t = some (n, width)) {d : Nat} (hd : d ∈ n.whole) : d < 10 := by
  unfold scanNumeral? at h
  dsimp only at h
  split at h
  · cases h
  · obtain ⟨rfl, -⟩ := Prod.mk.inj (Option.some.inj h)
    exact lt_of_mem_wholeDigits hd

/-- **Integers that are read can be told and written**, since none of them has more digits than
may be. -/
theorem hasLongInteger_of_read {t : Text} {v : Json} (h : read t = .ok v) :
    v.hasLongInteger = false := by
  refine holds_of_read inherited_short ?_ h
  intro s w hw
  rcases scalar_cases hw with ⟨e, he, rfl⟩ | ⟨n, width, i, hscan, hshort, rfl, hvalue⟩ | ⟨x, rfl⟩
  · have hnamed : ∀ e ∈ namedValues, e.2.hasLongInteger = false := by
      simp [namedValues, hasLongInteger]
    exact hnamed e he
  · have hsmall := ofDigitValues_lt fun d hd => lt_of_mem_whole hscan hd
    have hlength : n.whole.length ≤ digitLimit := of_decide_eq_true hshort
    rw [hasLongInteger, isLongInteger, hvalue, decide_eq_false_iff_not, Nat.not_le]
    exact Nat.lt_of_lt_of_le hsmall (powerOfTen_le hlength)
  · rfl

/-! ### Integers too long to be read -/

theorem lexeme_of_beginValue {stack : List Frame} {token : Token} {digits : Nat}
    (h : beginValue stack token = .error (.longInteger digits)) :
    token.lexeme = .longInteger digits := by
  unfold beginValue at h
  split at h
  case h_6 found hlexeme =>
    obtain rfl : found = digits := by simpa using h
    exact hlexeme
  all_goals cases h

theorem beginKey_ne_longInteger (fields : List (Text × Json)) (stack : List Frame) (token : Token)
    (digits : Nat) : beginKey fields stack token ≠ .error (.longInteger digits) := by
  unfold beginKey
  split
  all_goals exact fun h => nomatch h

theorem continueAfter_ne_longInteger (v : Json) (stack : List Frame) (token : Token)
    (digits : Nat) : continueAfter v stack token ≠ .error (.longInteger digits) := by
  unfold continueAfter
  split
  all_goals exact fun h => nomatch h

/-- Only where a value may begin is a long integer found fault with. -/
theorem lexeme_of_advance {phase : Phase} {stack : List Frame} {token : Token} {digits : Nat}
    (h : advance phase stack token = .error (.longInteger digits)) :
    token.lexeme = .longInteger digits := by
  cases phase with
  | value => exact lexeme_of_beginValue h
  | firstItem =>
    unfold advance at h
    dsimp only at h
    split at h
    · cases h
    · exact lexeme_of_beginValue h
  | firstKey =>
    unfold advance at h
    dsimp only at h
    split at h
    · cases h
    · exact absurd h (beginKey_ne_longInteger _ _ _ _)
  | key fields => exact absurd h (beginKey_ne_longInteger _ _ _ _)
  | colon fields key =>
    unfold advance at h
    dsimp only at h
    split at h
    · cases h
    · cases h
  | following v => exact absurd h (continueAfter_ne_longInteger _ _ _ _)

theorem exists_token_of_assemble {phase : Phase} {stack : List Frame} {tokens : List Token}
    {digits : Nat} (h : assemble phase stack tokens = .error (.longInteger digits)) :
    ∃ token ∈ tokens, token.lexeme = .longInteger digits := by
  induction tokens generalizing phase stack with
  | nil => cases h
  | cons token rest ih =>
    unfold assemble at h
    split at h
    · rename_i why hstop
      obtain rfl := Except.error.inj h
      exact ⟨token, List.mem_cons_self, lexeme_of_advance hstop⟩
    · cases h
    · obtain ⟨found, hfound, hlexeme⟩ := ih h
      exact ⟨found, List.mem_cons_of_mem token hfound, hlexeme⟩

/-- Whether a row of so many digits stands somewhere in the text. -/
def HasDigits (t : Text) (digits : Nat) : Prop :=
  ∃ run, run <:+: t ∧ run.length = digits ∧ ∀ c ∈ run, c.asciiDigit? ≠ none

theorem HasDigits.mono {s t : Text} {digits : Nat} (h : HasDigits s digits) (ht : s <:+: t) :
    HasDigits t digits := by
  obtain ⟨run, hrun, hlength, hdigits⟩ := h
  exact ⟨run, hrun.trans ht, hlength, hdigits⟩

theorem length_leadingDigits (t : Text) :
    (t.takeWhile fun c => c.asciiDigit?.isSome).length = (leadingDigits t).length := by
  induction t with
  | nil => rfl
  | cons c rest ih =>
    rw [leadingDigits] at ih ⊢
    cases hc : c.asciiDigit? with
    | none => simp [hc]
    | some d => simp [hc, ih]

theorem hasDigits_leadingDigits (t : Text) : HasDigits t (leadingDigits t).length := by
  refine ⟨_, (List.takeWhile_prefix _).isInfix, length_leadingDigits t, ?_⟩
  intro c hc
  have hsome : c.asciiDigit?.isSome = true :=
    List.mem_takeWhile_imp (p := fun c : CodePoint => c.asciiDigit?.isSome) hc
  exact Option.isSome_iff_ne_none.mp hsome

theorem long_of_lexeme {n : Numeral} {digits : Nat}
    (h : n.lexeme (some digitLimit) = .longInteger digits) :
    n.whole.length = digits ∧ digitLimit < digits := by
  unfold Numeral.lexeme at h
  split at h
  · split at h
    · cases h
    · rename_i hlong
      obtain rfl := Lexeme.longInteger.inj h
      simp only [Option.all_some, decide_eq_true_eq, Nat.not_le] at hlong
      exact ⟨rfl, hlong⟩
  · cases h

theorem hasDigits_of_scanNumeral? {t : Text} {n : Numeral} {width : Nat}
    (h : scanNumeral? t = some (n, width)) (hlong : 1 < n.whole.length) :
    HasDigits t n.whole.length := by
  unfold scanNumeral? at h
  dsimp only at h
  split at h
  · cases h
  · rename_i hwhole
    obtain ⟨rfl, -⟩ := Prod.mk.inj (Option.some.inj h)
    dsimp only at hlong ⊢
    unfold wholeDigits at hlong ⊢
    split at hlong
    -- a number that starts with a zero has no further digits
    · simp at hlong
    · refine (hasDigits_leadingDigits _).mono ?_
      split
      · exact (List.drop_suffix 1 t).isInfix
      · exact List.infix_refl t

theorem hasDigits_of_scanScalar {digits : Nat} {t : Text}
    (h : (scanScalar (some digitLimit) t).1 = .longInteger digits) :
    digitLimit < digits ∧ HasDigits t digits := by
  unfold scanScalar at h
  split at h
  · cases h
  · split at h
    · cases h
    · rename_i n width hnumeral
      obtain ⟨rfl, hlong⟩ := long_of_lexeme h
      have hone : 1 < n.whole.length := Nat.lt_trans (by decide) hlong
      exact ⟨hlong, hasDigits_of_scanNumeral? hnumeral hone⟩

theorem hasDigits_of_scanLexeme {offset digits : Nat} {c : CodePoint} {rest : Text}
    (h : (scanLexeme (some digitLimit) offset c rest).1 = .longInteger digits) :
    digitLimit < digits ∧ HasDigits (c :: rest) digits := by
  unfold scanLexeme at h
  -- one case for each mark, then the string, then everything else
  iterate 6
    split at h
    · cases h
  split at h
  · split at h
    · cases h
    · cases h
  · exact hasDigits_of_scanScalar h

/-- **An integer too long to be read stands in the text.** -/
theorem hasDigits_of_read {t : Text} {digits : Nat} (h : read t = .error (.longInteger digits)) :
    digitLimit < digits ∧ HasDigits t digits := by
  unfold read readWithin at h
  dsimp only at h
  split at h
  · cases h
  · cases h
  · rename_i found hstopped
    obtain rfl : found = digits := by simpa using h
    split at hstopped
    · cases hstopped
    · obtain ⟨token, hmem, hlexeme⟩ := exists_token_of_assemble hstopped
      rcases scannedIn_of_mem_tokens hmem with hfinish | ⟨offset, c, rest, hsuffix, hscan⟩
      · rw [hfinish] at hlexeme
        cases hlexeme
      · rw [hscan] at hlexeme
        obtain ⟨hlong, hdigits⟩ := hasDigits_of_scanLexeme hlexeme
        exact ⟨hlong, hdigits.mono hsuffix.isInfix⟩

section DigitRow

variable {d : Nat} {tail : List Nat} (hdigits : ∀ e ∈ d :: tail, e < 10) (hd : d ≠ 0)

include hdigits hd

theorem isWritten_digitRow : Numeral.IsWritten ⟨false, d :: tail, [], none⟩ where
  whole := ⟨d, tail, rfl, fun h => absurd h hd⟩
  wholeDigits := hdigits
  fractionDigits := fun _ he => nomatch he
  power := fun _ hp => nomatch hp

theorem scanScalar_digitRow (hlong : digitLimit < (d :: tail).length) :
    scanScalar (some digitLimit) ((d :: tail).map digitCodePoint) =
      (.longInteger (d :: tail).length, (d :: tail).length) := by
  have htext : Numeral.text ⟨false, d :: tail, [], none⟩ = (d :: tail).map digitCodePoint := by
    simp [Numeral.text, fractionText, powerText]
  have hscan := (isWritten_digitRow hdigits hd).scanScalar_append endsNumber_nil (some digitLimit)
  rw [List.append_nil, htext] at hscan
  rw [hscan, List.length_map]
  dsimp only [Numeral.lexeme]
  rw [Option.all_some, if_neg (by simpa using hlong)]

/-- More digits in a row than may be read are refused, with their number. -/
theorem read_digitRow (hlong : digitLimit < (d :: tail).length) :
    read ((d :: tail).map digitCodePoint) = .error (.longInteger (d :: tail).length) := by
  have hfirst : ∀ d < 10, digitCodePoint d ∉ ("[]\x7b\x7d,:\"" : Text) ∧
      isSpacing (digitCodePoint d) = false ∧ digitCodePoint d ≠ '\uFEFF' := by decide
  obtain ⟨hmark, hspacing, hbom⟩ := hfirst d (hdigits d List.mem_cons_self)
  have htokens : tokens (some digitLimit) ((d :: tail).map digitCodePoint) =
      [⟨0, .longInteger (d :: tail).length⟩] := by
    rw [tokens, List.map_cons, tokensFrom, hspacing, if_neg Bool.false_ne_true,
      scanLexeme_of_not_mark hmark, ← List.map_cons, scanScalar_digitRow hdigits hd hlong]
    rfl
  have hstart : ((d :: tail).map digitCodePoint).head? ≠ some ('\uFEFF' : CodePoint) := by
    simpa using hbom
  rw [read, readWithin, if_neg hstart, htokens]
  rfl

end DigitRow

end Json

end Phrasing
