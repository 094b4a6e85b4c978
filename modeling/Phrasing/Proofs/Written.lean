/-
  Phrasing/Proofs/Written.lean
  ============================
  **What is written is read back.**

  A value in which every text can be held by a file, no integer is too long and no
  object has a key twice is `Legible`, and `Storable` if it has no floating-point
  numbers either.  Its text is cut into lexemes, whatever the layout: those of the
  value, with each floating-point number as its text is read.  The reading machine
  puts these together again: a value takes the machine from waiting for a value to
  the place after that value and leaves everything that is open as it was.
-/
import Phrasing.Json.Reader
import Phrasing.Proofs.Entries
import Phrasing.Proofs.Numerals

namespace Phrasing.Json

/-! ### Values that can be stored -/

mutual

/-- The value can be told exactly by a text that a file can hold. -/
def Storable : Json → Prop
  | .null | .bool _ => True
  | .int n => isLongInteger n = false
  | .float _ => False
  | .str t => t.IsScalar
  | .arr items => StorableItems items
  | .obj fields => Entries.WellFormed fields ∧ StorableFields fields

def StorableItems : List Json → Prop
  | [] => True
  | v :: rest => v.Storable ∧ StorableItems rest

def StorableFields : List (Text × Json) → Prop
  | [] => True
  | (key, v) :: rest => key.IsScalar ∧ v.Storable ∧ StorableFields rest

end

mutual

def decideStorable : (v : Json) → Decidable v.Storable
  | .null | .bool _ => isTrue trivial
  | .int n => inferInstanceAs (Decidable (isLongInteger n = false))
  | .float _ => isFalse id
  | .str t => inferInstanceAs (Decidable t.IsScalar)
  | .arr items => decideStorableItems items
  | .obj fields =>
    have := decideStorableFields fields
    inferInstanceAs (Decidable (Entries.WellFormed fields ∧ StorableFields fields))

def decideStorableItems : (items : List Json) → Decidable (StorableItems items)
  | [] => isTrue trivial
  | v :: rest =>
    have := v.decideStorable
    have := decideStorableItems rest
    inferInstanceAs (Decidable (v.Storable ∧ StorableItems rest))

def decideStorableFields : (fields : List (Text × Json)) → Decidable (StorableFields fields)
  | [] => isTrue trivial
  | (key, v) :: rest =>
    have := v.decideStorable
    have := decideStorableFields rest
    inferInstanceAs (Decidable (key.IsScalar ∧ v.Storable ∧ StorableFields rest))

end

instance (v : Json) : Decidable v.Storable := v.decideStorable

/-! ### Values that can be read back -/

mutual

/-- The value can be told by a text that a file can hold, all but its floating-point numbers
exactly. -/
def Legible : Json → Prop
  | .null | .bool _ | .float _ => True
  | .int n => isLongInteger n = false
  | .str t => t.IsScalar
  | .arr items => LegibleItems items
  | .obj fields => Entries.WellFormed fields ∧ LegibleFields fields

def LegibleItems : List Json → Prop
  | [] => True
  | v :: rest => v.Legible ∧ LegibleItems rest

def LegibleFields : List (Text × Json) → Prop
  | [] => True
  | (key, v) :: rest => key.IsScalar ∧ v.Legible ∧ LegibleFields rest

end

mutual

/-- The value with each floating-point number as its text is read. -/
def told : Json → Json
  | .float x => .float x.told
  | .arr items => .arr (toldItems items)
  | .obj fields => .obj (toldFields fields)
  | v => v

def toldItems : List Json → List Json
  | [] => []
  | v :: rest => v.told :: toldItems rest

def toldFields : List (Text × Json) → List (Text × Json)
  | [] => []
  | (key, v) :: rest => (key, v.told) :: toldFields rest

end

mutual

theorem legible_of_storable : ∀ v : Json, v.Storable → v.Legible
  | .null, _ | .bool _, _ => trivial
  | .int _, h | .str _, h => h
  | .arr items, h => legibleItems_of_storable items h
  | .obj fields, h => ⟨h.1, legibleFields_of_storable fields h.2⟩

theorem legibleItems_of_storable : ∀ items : List Json, StorableItems items → LegibleItems items
  | [], _ => trivial
  | v :: rest, h => ⟨legible_of_storable v h.1, legibleItems_of_storable rest h.2⟩

theorem legibleFields_of_storable :
    ∀ fields : List (Text × Json), StorableFields fields → LegibleFields fields
  | [], _ => trivial
  | (_, v) :: rest, h =>
    ⟨h.1, legible_of_storable v h.2.1, legibleFields_of_storable rest h.2.2⟩

end

mutual

/-- Without floating-point numbers a value is told exactly. -/
theorem told_of_storable : ∀ v : Json, v.Storable → v.told = v
  | .null, _ | .bool _, _ | .int _, _ | .str _, _ => rfl
  | .arr items, h => congrArg Json.arr (toldItems_of_storable items h)
  | .obj fields, h => congrArg Json.obj (toldFields_of_storable fields h.2)

theorem toldItems_of_storable : ∀ items : List Json, StorableItems items → toldItems items = items
  | [], _ => rfl
  | v :: rest, h => by
    rw [toldItems, told_of_storable v h.1, toldItems_of_storable rest h.2]

theorem toldFields_of_storable :
    ∀ fields : List (Text × Json), StorableFields fields → toldFields fields = fields
  | [], _ => rfl
  | (key, v) :: rest, h => by
    rw [toldFields, told_of_storable v h.2.1, toldFields_of_storable rest h.2.2]

end

theorem keys_toldFields (fields : List (Text × Json)) :
    Entries.keys (toldFields fields) = Entries.keys fields := by
  induction fields with
  | nil => rfl
  | cons field rest ih =>
    obtain ⟨key, v⟩ := field
    exact congrArg (key :: ·) ih

mutual

theorem legible_told : ∀ v : Json, v.Legible → v.told.Legible
  | .null, _ | .bool _, _ | .float _, _ => trivial
  | .int _, h | .str _, h => h
  | .arr items, h => legibleItems_told items h
  | .obj fields, h => by
    refine ⟨?_, legibleFields_told fields h.2⟩
    rw [Entries.WellFormed, keys_toldFields]
    exact h.1

theorem legibleItems_told : ∀ items : List Json, LegibleItems items → LegibleItems (toldItems items)
  | [], _ => trivial
  | v :: rest, h => ⟨legible_told v h.1, legibleItems_told rest h.2⟩

theorem legibleFields_told :
    ∀ fields : List (Text × Json), LegibleFields fields → LegibleFields (toldFields fields)
  | [], _ => trivial
  | (_, v) :: rest, h => ⟨h.1, legible_told v h.2.1, legibleFields_told rest h.2.2⟩

end

/-! ### Lexemes of a value -/

mutual

def lexemes : Json → List Lexeme
  | .str t => [.text t]
  | .arr [] => [.openArray, .closeArray]
  | .arr (v :: rest) => .openArray :: (v.lexemes ++ itemLexemes rest ++ [.closeArray])
  | .obj [] => [.openObject, .closeObject]
  | .obj ((key, v) :: rest) =>
    .openObject :: .text key :: .colon :: (v.lexemes ++ fieldLexemes rest ++ [.closeObject])
  | v => [.scalar v]

def itemLexemes : List Json → List Lexeme
  | [] => []
  | v :: rest => .comma :: (v.lexemes ++ itemLexemes rest)

def fieldLexemes : List (Text × Json) → List Lexeme
  | [] => []
  | (key, v) :: rest => .comma :: .text key :: .colon :: (v.lexemes ++ fieldLexemes rest)

end

/-! ### Cutting a text piece by piece -/

/-- Wherever it stands before the rest, the text is cut into such lexemes. -/
def Lexes (t : Text) (lexemes : List Lexeme) (rest : Text) : Prop :=
  ∀ offset found, ∃ tokens : List Token, tokens.map Token.lexeme = lexemes ∧
    tokensFrom (some digitLimit) offset 0 found (t ++ rest) =
      tokensFrom (some digitLimit) (offset + t.length) 0 (tokens.reverse ++ found) rest

section Lexes

variable {t t' rest : Text} {l l' : List Lexeme}

theorem Lexes.append (h : Lexes t l (t' ++ rest)) (h' : Lexes t' l' rest) :
    Lexes (t ++ t') (l ++ l') rest := by
  intro offset found
  obtain ⟨tokens, hl, hstep⟩ := h offset found
  obtain ⟨tokens', hl', hstep'⟩ := h' (offset + t.length) (tokens.reverse ++ found)
  refine ⟨tokens ++ tokens', by rw [List.map_append, hl, hl'], ?_⟩
  rw [List.append_assoc, hstep, hstep', List.length_append, List.reverse_append,
    List.append_assoc, Nat.add_assoc]

theorem lexes_nil (rest : Text) : Lexes [] [] rest := fun _ _ => ⟨[], rfl, rfl⟩

theorem lexes_spacing (h : ∀ c ∈ t, isSpacing c = true) (rest : Text) : Lexes t [] rest := by
  induction t with
  | nil => exact lexes_nil rest
  | cons c tail ih =>
    intro offset found
    obtain ⟨tokens, hl, hstep⟩ :=
      ih (fun d hd => h d (List.mem_cons_of_mem c hd)) (offset + 1) found
    refine ⟨tokens, hl, ?_⟩
    rw [List.cons_append, tokensFrom.eq_def]
    dsimp only
    rw [if_pos (h c List.mem_cons_self), hstep, List.length_cons, Nat.add_assoc, Nat.add_comm 1]

theorem tokensFrom_skip (limit : Option Nat) (offset : Nat) (found : List Token) (t rest : Text) :
    tokensFrom limit offset t.length found (t ++ rest) =
      tokensFrom limit (offset + t.length) 0 found rest := by
  induction t generalizing offset with
  | nil => rfl
  | cons c tail ih =>
    rw [List.length_cons, List.cons_append, tokensFrom, ih, Nat.add_assoc, Nat.add_comm 1]

/-- One lexeme, if it is cut off alike at every offset. -/
theorem lexes_lexeme {c : CodePoint} {tail : Text} {lexeme : Lexeme}
    (hc : isSpacing c = false) (hlast : lexeme.isLast = false)
    (hscan : ∀ offset, scanLexeme (some digitLimit) offset c (tail ++ rest) =
      (lexeme, tail.length + 1)) :
    Lexes (c :: tail) [lexeme] rest := by
  intro offset found
  refine ⟨[⟨offset, lexeme⟩], rfl, ?_⟩
  rw [List.cons_append, tokensFrom.eq_def]
  dsimp only
  rw [hc, hscan, if_neg (by decide)]
  dsimp only
  rw [hlast, if_neg (by decide), Nat.add_sub_cancel, tokensFrom_skip, List.length_cons,
    Nat.add_assoc, Nat.add_comm 1]
  rfl

theorem Lexes.spaced (h : Lexes t l (t' ++ rest)) (hspacing : ∀ c ∈ t', isSpacing c = true) :
    Lexes (t ++ t') l rest := by
  have happend := h.append (lexes_spacing hspacing rest)
  rwa [List.append_nil] at happend

end Lexes

/-! ### The pieces of a written value -/

theorem lexes_renderString {t : Text} (h : t.IsScalar) (asciiOnly : Bool) (rest : Text) :
    Lexes (renderString asciiOnly t) [.text t] rest := by
  have hcons : renderString asciiOnly t =
      ('"' : CodePoint) :: (t.flatMap (escape asciiOnly) ++ [('"' : CodePoint)]) := rfl
  rw [hcons]
  refine lexes_lexeme (by decide) rfl fun offset => ?_
  have hscan : ∀ s u stop, scanString offset (offset + 1) [] s = .ok (u, stop) →
      scanLexeme (some digitLimit) offset '"' s = (.text u, stop - offset) := by
    intro s u stop hs
    unfold scanLexeme
    rw [hs]
    rfl
  rw [List.append_assoc, List.singleton_append, hscan _ _ _ (scanString_flatMap h ..)]
  have hwidth : offset + 1 + (t.flatMap (escape asciiOnly)).length + 1 - offset =
      (t.flatMap (escape asciiOnly)).length + 1 + 1 := by omega
  rw [hwidth, List.length_append]
  rfl

theorem scanLexeme_of_not_mark {c : CodePoint} (h : c ∉ ("[]\x7b\x7d,:\"" : Text))
    (limit : Option Nat) (offset : Nat) (rest : Text) :
    scanLexeme limit offset c rest = scanScalar limit (c :: rest) := by
  simp only [Text.ofString, List.mem_map, not_exists, not_and] at h
  unfold scanLexeme
  rw [if_neg, if_neg, if_neg, if_neg, if_neg, if_neg, if_neg]
  all_goals
    rintro rfl
    exact h _ (by decide) rfl

/-- The text starts as no mark, blank or byte order mark does. -/
def StartsPlain (t : Text) : Prop :=
  ∃ c tail, t = c :: tail ∧ isSpacing c = false ∧ c ∉ ("[]\x7b\x7d,:\"" : Text) ∧ c ≠ '\uFEFF'

theorem lexes_scalar {t : Text} {v : Json} {rest : Text} (ht : StartsPlain t)
    (hscan : scanScalar (some digitLimit) (t ++ rest) = (.scalar v, t.length)) :
    Lexes t [.scalar v] rest := by
  obtain ⟨c, tail, rfl, hspacing, hmark, -⟩ := ht
  refine lexes_lexeme hspacing rfl fun offset => ?_
  rw [scanLexeme_of_not_mark hmark]
  exact hscan

theorem Numeral.IsWritten.startsPlain {n : Numeral} (hn : n.IsWritten) : StartsPlain n.text := by
  have hdigit : ∀ d < 10, isSpacing (digitCodePoint d) = false ∧
      digitCodePoint d ∉ ("[]\x7b\x7d,:\"" : Text) ∧ digitCodePoint d ≠ '\uFEFF' := by decide
  obtain ⟨d, tail, hd, htext⟩ := hn.exists_head
  rw [htext]
  cases n.negative with
  | false => exact ⟨_, _, rfl, hdigit d hd⟩
  | true => exact ⟨_, _, rfl, by decide⟩

theorem startsPlain_ofInt (n : Int) : StartsPlain (Text.ofInt n) := by
  rw [← Numeral.text_ofInt]
  exact (Numeral.isWritten_ofInt n).startsPlain

theorem startsPlain_renderFloat (x : Double) : StartsPlain (renderFloat x) := by
  match x with
  | .nan | .infinite true | .infinite false => exact ⟨_, _, rfl, by decide⟩
  | .finite negative mantissa exponent =>
    obtain ⟨n, hn, -, htext⟩ := exists_numeral_finiteText negative mantissa exponent
    rw [renderFloat, htext]
    exact hn.startsPlain

theorem lexes_ofInt {n : Int} (hn : isLongInteger n = false) {rest : Text}
    (hrest : EndsNumber rest) : Lexes (Text.ofInt n) [.scalar (.int n)] rest := by
  refine lexes_scalar (startsPlain_ofInt n) ?_
  rw [← Numeral.text_ofInt, (Numeral.isWritten_ofInt n).scanScalar_append hrest,
    Numeral.lexeme_ofInt hn]

theorem lexes_renderFloat (x : Double) {rest : Text} (hrest : EndsNumber rest) :
    Lexes (renderFloat x) [.scalar (.float x.told)] rest :=
  lexes_scalar (startsPlain_renderFloat x) (scanScalar_renderFloat x hrest _)

theorem isSpacing_of_mem_lineBreak (layout : Layout) (level : Nat) :
    ∀ c ∈ layout.lineBreak level, isSpacing c = true := by
  obtain ⟨indent, asciiOnly⟩ := layout
  cases indent with
  | none => exact fun c hc => nomatch hc
  | some width =>
    intro c hc
    rcases List.mem_cons.mp hc with rfl | hc
    · rfl
    · rw [List.eq_of_mem_replicate hc]
      rfl

theorem exists_separator (layout : Layout) (level : Nat) :
    ∃ s : Text, (∀ c ∈ s, isSpacing c = true) ∧
      layout.separator level = (',' : CodePoint) :: s := by
  obtain ⟨indent, asciiOnly⟩ := layout
  cases indent with
  | none => exact ⟨[(' ' : CodePoint)], by decide, rfl⟩
  | some width => exact ⟨_, isSpacing_of_mem_lineBreak _ level, rfl⟩

theorem lexes_openArray (rest : Text) : Lexes "[" [.openArray] rest :=
  lexes_lexeme (by decide) rfl fun _ => rfl

theorem lexes_closeArray (rest : Text) : Lexes "]" [.closeArray] rest :=
  lexes_lexeme (by decide) rfl fun _ => rfl

theorem lexes_openObject (rest : Text) : Lexes "\x7b" [.openObject] rest :=
  lexes_lexeme (by decide) rfl fun _ => rfl

theorem lexes_closeObject (rest : Text) : Lexes "\x7d" [.closeObject] rest :=
  lexes_lexeme (by decide) rfl fun _ => rfl

theorem lexes_separator (layout : Layout) (level : Nat) (rest : Text) :
    Lexes (layout.separator level) [.comma] rest := by
  obtain ⟨s, hspacing, heq⟩ := exists_separator layout level
  have hcomma : Lexes [(',' : CodePoint)] [.comma] (s ++ rest) :=
    lexes_lexeme (by decide) rfl fun _ => rfl
  rw [heq]
  exact hcomma.spaced hspacing

theorem lexes_colon (rest : Text) : Lexes ": " [.colon] rest := by
  have hcolon : Lexes [(':' : CodePoint)] [.colon] ([(' ' : CodePoint)] ++ rest) :=
    lexes_lexeme (by decide) rfl fun _ => rfl
  exact hcolon.spaced (by decide)

theorem EndsNumber.append {t rest : Text} (h : EndsNumber t) (hrest : EndsNumber rest) :
    EndsNumber (t ++ rest) := by
  cases t with
  | nil => exact hrest
  | cons c tail => exact h

theorem endsNumber_of_spacing {t : Text} (h : ∀ c ∈ t, isSpacing c = true) : EndsNumber t := by
  intro c hc
  have hspacing := h c (List.mem_of_mem_head? hc)
  simp only [isSpacing, Bool.or_eq_true, decide_eq_true_eq] at hspacing
  rcases hspacing with ((rfl | rfl) | rfl) | rfl <;> decide

theorem endsNumber_cons {c : CodePoint}
    (h : c.asciiDigit? = none ∧ c ≠ '.' ∧ c ≠ 'e' ∧ c ≠ 'E') (rest : Text) :
    EndsNumber (c :: rest) := by
  intro d hd
  cases hd
  exact h

theorem endsNumber_separator_append (layout : Layout) (level : Nat) (rest : Text) :
    EndsNumber (layout.separator level ++ rest) := by
  obtain ⟨s, -, heq⟩ := exists_separator layout level
  rw [heq]
  exact endsNumber_cons (by decide) _

theorem endsNumber_renderItems (layout : Layout) (level : Nat) (items : List Json) :
    EndsNumber (renderItems layout level items) := by
  cases items with
  | nil => exact endsNumber_nil
  | cons v rest =>
    rw [renderItems, List.append_assoc]
    exact endsNumber_separator_append layout level _

theorem endsNumber_renderFields (layout : Layout) (level : Nat) (fields : List (Text × Json)) :
    EndsNumber (renderFields layout level fields) := by
  cases fields with
  | nil => exact endsNumber_nil
  | cons field rest =>
    obtain ⟨key, v⟩ := field
    rw [renderFields, List.append_assoc, List.append_assoc, List.append_assoc]
    exact endsNumber_separator_append layout level _

/-! ### Written values are cut into their lexemes -/

mutual

theorem lexes_render (layout : Layout) (level : Nat) :
    ∀ v : Json, v.Legible → ∀ {rest : Text}, EndsNumber rest →
      Lexes (v.render layout level) v.told.lexemes rest
  | .null, _, _, _ => lexes_lexeme (by decide) rfl fun _ => rfl
  | .bool true, _, _, _ => lexes_lexeme (by decide) rfl fun _ => rfl
  | .bool false, _, _, _ => lexes_lexeme (by decide) rfl fun _ => rfl
  | .int _, h, _, hrest => lexes_ofInt h hrest
  | .float x, _, _, hrest => lexes_renderFloat x hrest
  | .str t, h, rest, _ => lexes_renderString h layout.asciiOnly rest
  | .arr [], _, rest, _ => (lexes_openArray _).append (lexes_closeArray rest)
  | .arr (v :: items), h, rest, _ => by
    have hbreak := isSpacing_of_mem_lineBreak layout
    have hend : EndsNumber (layout.lineBreak level ++ (("]" : Text) ++ rest)) :=
      (endsNumber_of_spacing (hbreak level)).append (endsNumber_cons (by decide) _)
    have hitem := lexes_render layout (level + 1) v h.1
      ((endsNumber_renderItems layout (level + 1) items).append hend)
    have hitems := lexes_renderItems layout (level + 1) items h.2 hend
    have hfirst := ((lexes_openArray _).spaced (hbreak (level + 1))).append hitem
    exact ((hfirst.append hitems).spaced (hbreak level)).append (lexes_closeArray rest)
  | .obj [], _, rest, _ => (lexes_openObject _).append (lexes_closeObject rest)
  | .obj ((key, v) :: fields), h, rest, _ => by
    have hbreak := isSpacing_of_mem_lineBreak layout
    have hend : EndsNumber (layout.lineBreak level ++ (("\x7d" : Text) ++ rest)) :=
      (endsNumber_of_spacing (hbreak level)).append (endsNumber_cons (by decide) _)
    have hkey := lexes_renderString h.2.1 layout.asciiOnly
    have hvalue := lexes_render layout (level + 1) v h.2.2.1
      ((endsNumber_renderFields layout (level + 1) fields).append hend)
    have hfields := lexes_renderFields layout (level + 1) fields h.2.2.2 hend
    have hfirst := ((((lexes_openObject _).spaced (hbreak (level + 1))).append (hkey _)).append
      (lexes_colon _)).append hvalue
    exact ((hfirst.append hfields).spaced (hbreak level)).append (lexes_closeObject rest)

theorem lexes_renderItems (layout : Layout) (level : Nat) :
    ∀ items : List Json, LegibleItems items → ∀ {rest : Text}, EndsNumber rest →
      Lexes (renderItems layout level items) (itemLexemes (toldItems items)) rest
  | [], _, rest, _ => lexes_nil rest
  | v :: items, h, rest, hrest => by
    -- a number ends at the next separator, or with the items
    have hitem := lexes_render layout level v h.1
      ((endsNumber_renderItems layout level items).append hrest)
    have hitems := lexes_renderItems layout level items h.2 hrest
    exact ((lexes_separator layout level _).append hitem).append hitems

theorem lexes_renderFields (layout : Layout) (level : Nat) :
    ∀ fields : List (Text × Json), LegibleFields fields → ∀ {rest : Text}, EndsNumber rest →
      Lexes (renderFields layout level fields) (fieldLexemes (toldFields fields)) rest
  | [], _, rest, _ => lexes_nil rest
  | (key, v) :: fields, h, rest, hrest => by
    have hkey := lexes_renderString h.1 layout.asciiOnly
    have hvalue := lexes_render layout level v h.2.1
      ((endsNumber_renderFields layout level fields).append hrest)
    have hfields := lexes_renderFields layout level fields h.2.2 hrest
    have hfirst := (((lexes_separator layout level _).append (hkey _)).append
      (lexes_colon _)).append hvalue
    exact hfirst.append hfields

end

/-! ### The machine on the lexemes of a value -/

/-- Such lexemes, at whatever offsets, take the machine from one state to another. -/
def Drives (lexemes : List Lexeme) (phase : Phase) (stack : List Frame) (phase' : Phase)
    (stack' : List Frame) : Prop :=
  ∀ tokens : List Token, tokens.map Token.lexeme = lexemes →
    ∀ rest, assemble phase stack (tokens ++ rest) = assemble phase' stack' rest

section Drives

variable {l l' : List Lexeme} {phase phase' phase'' : Phase} {stack stack' stack'' : List Frame}

theorem Drives.append (h : Drives l phase stack phase' stack')
    (h' : Drives l' phase' stack' phase'' stack'') :
    Drives (l ++ l') phase stack phase'' stack'' := by
  intro tokens htokens rest
  obtain ⟨first, second, rfl, hfirst, hsecond⟩ := List.map_eq_append_iff.mp htokens
  rw [List.append_assoc, h first hfirst, h' second hsecond]

theorem drives_cons {lexeme : Lexeme}
    (h : ∀ offset, advance phase stack ⟨offset, lexeme⟩ = .ok (.more phase' stack'))
    (h' : Drives l phase' stack' phase'' stack'') :
    Drives (lexeme :: l) phase stack phase'' stack'' := by
  intro tokens htokens rest
  obtain ⟨⟨offset, found⟩, tail, rfl, hfound, htail⟩ := List.map_eq_cons_iff.mp htokens
  cases hfound
  rw [List.cons_append, assemble, h offset]
  exact h' tail htail rest

theorem drives_lexeme {lexeme : Lexeme}
    (h : ∀ offset, advance phase stack ⟨offset, lexeme⟩ = .ok (.more phase' stack')) :
    Drives [lexeme] phase stack phase' stack' := by
  refine drives_cons h fun tokens htokens rest => ?_
  rw [List.map_eq_nil_iff.mp htokens, List.nil_append]

theorem exists_head_lexemes (v : Json) :
    ∃ lexeme rest, v.lexemes = lexeme :: rest ∧ lexeme ≠ .closeArray := by
  cases v with
  | null | bool | int | float | str => exact ⟨_, [], rfl, Lexeme.noConfusion⟩
  | arr items => cases items <;> exact ⟨_, _, rfl, Lexeme.noConfusion⟩
  | obj fields => cases fields <;> exact ⟨_, _, rfl, Lexeme.noConfusion⟩

/-- A first item is read as any other. -/
theorem drives_firstItem {v : Json}
    (h : Drives v.lexemes .value (.array [] :: stack) phase' stack') :
    Drives v.lexemes .firstItem stack phase' stack' := by
  obtain ⟨lexeme, tail, hlexemes, hopen⟩ := exists_head_lexemes v
  intro tokens htokens rest
  rw [← h tokens htokens rest]
  rw [hlexemes] at htokens
  obtain ⟨⟨offset, found⟩, tail, rfl, hfound, -⟩ := List.map_eq_cons_iff.mp htokens
  -- only the end of the array would set the two phases apart
  have hadvance : advance .firstItem stack ⟨offset, found⟩ =
      advance .value (.array [] :: stack) ⟨offset, found⟩ := by
    cases found with
    | closeArray => exact absurd hfound.symm hopen
    | _ => rfl
  rw [List.cons_append, assemble, assemble, hadvance]

end Drives

mutual

theorem drives_value : ∀ v : Json, v.Legible → ∀ stack : List Frame,
    Drives v.lexemes .value stack (.following v) stack
  | .null, _, _ => drives_lexeme fun _ => rfl
  | .bool _, _, _ => drives_lexeme fun _ => rfl
  | .int _, _, _ => drives_lexeme fun _ => rfl
  | .float _, _, _ => drives_lexeme fun _ => rfl
  | .str _, _, _ => drives_lexeme fun _ => rfl
  | .arr [], _, _ => drives_cons (fun _ => rfl) (drives_lexeme fun _ => rfl)
  | .arr (v :: items), h, stack => by
    have hitem := drives_firstItem (drives_value v h.1 (.array [] :: stack))
    have hitems := drives_items items h.2 [] v stack
    rw [lexemes, List.append_assoc]
    exact drives_cons (fun _ => rfl) (hitem.append hitems)
  | .obj [], _, _ => drives_cons (fun _ => rfl) (drives_lexeme fun _ => rfl)
  | .obj ((key, v) :: fields), h, stack => by
    have hvalue := drives_value v h.2.2.1 (.object [] key :: stack)
    have hfields := drives_fields fields h.2.2.2 [] key v stack h.1
    rw [lexemes, List.append_assoc]
    exact drives_cons (fun _ => rfl) (drives_cons (fun _ => rfl) (drives_cons (fun _ => rfl)
      (hvalue.append hfields)))

/-- Further items are read up to the end of their array. -/
theorem drives_items : ∀ items : List Json, LegibleItems items →
    ∀ (found : List Json) (v : Json) (stack : List Frame),
      Drives (itemLexemes items ++ [.closeArray]) (.following v) (.array found :: stack)
        (.following (.arr (found.reverse ++ v :: items))) stack
  | [], _, found, v, stack => by
    rw [← List.reverse_cons]
    exact drives_lexeme fun _ => rfl
  | w :: items, h, found, v, stack => by
    have hitem := drives_value w h.1 (.array (v :: found) :: stack)
    have hitems := drives_items items h.2 (v :: found) w stack
    rw [List.reverse_cons, List.append_assoc] at hitems
    rw [itemLexemes, List.cons_append, List.append_assoc]
    exact drives_cons (fun _ => rfl) (hitem.append hitems)

/-- Further members are read up to the end of their object. -/
theorem drives_fields : ∀ fields : List (Text × Json), LegibleFields fields →
    ∀ (found : List (Text × Json)) (key : Text) (v : Json) (stack : List Frame),
      Entries.WellFormed (found ++ (key, v) :: fields) →
      Drives (fieldLexemes fields ++ [.closeObject]) (.following v) (.object found key :: stack)
        (.following (.obj (found ++ (key, v) :: fields))) stack
  | [], _, found, key, v, stack, hkeys => by
    have hnew := Entries.not_mem_keys_of_wellFormed_append hkeys
    refine drives_lexeme fun _ => ?_
    rw [← Entries.insert_of_not_mem hnew]
    rfl
  | (key', w) :: fields, h, found, key, v, stack, hkeys => by
    -- the key is new, so the machine puts its value behind the members it has found
    have hnew := Entries.not_mem_keys_of_wellFormed_append hkeys
    have hsplit : found ++ (key, v) :: (key', w) :: fields =
        Entries.insert found key v ++ (key', w) :: fields := by
      rw [Entries.insert_of_not_mem hnew, List.append_assoc, List.singleton_append]
    rw [hsplit] at hkeys ⊢
    have hvalue := drives_value w h.2.1 (.object (Entries.insert found key v) key' :: stack)
    have hfields := drives_fields fields h.2.2 (Entries.insert found key v) key' w stack hkeys
    rw [fieldLexemes, List.cons_append, List.cons_append, List.cons_append, List.append_assoc]
    exact drives_cons (fun _ => rfl) (drives_cons (fun _ => rfl) (drives_cons (fun _ => rfl)
      (hvalue.append hfields)))

end

/-! ### Reading what was written -/

/-- No written value starts with a byte order mark. -/
theorem head?_render (layout : Layout) (level : Nat) (v : Json) :
    (v.render layout level).head? ≠ some ('\uFEFF' : CodePoint) := by
  have hplain : ∀ t, StartsPlain t → t.head? ≠ some ('\uFEFF' : CodePoint) := by
    rintro _ ⟨c, tail, rfl, -, -, hmark⟩
    exact fun heq => hmark (Option.some.inj heq)
  cases v with
  | null => exact fun heq => absurd (Option.some.inj heq) (by decide)
  | bool b => cases b <;> exact fun heq => absurd (Option.some.inj heq) (by decide)
  | int n => exact hplain _ (startsPlain_ofInt n)
  | float x => exact hplain _ (startsPlain_renderFloat x)
  | str t => exact fun heq => absurd (Option.some.inj heq) (by decide)
  | arr items => cases items <;> exact fun heq => absurd (Option.some.inj heq) (by decide)
  | obj fields => cases fields <;> exact fun heq => absurd (Option.some.inj heq) (by decide)

/-- A legible value, written in whatever layout, is read as it is told. -/
theorem read_render_told (layout : Layout) (level : Nat) {v : Json} (h : v.Legible) :
    read (v.render layout level) = .ok v.told := by
  obtain ⟨found, hlexemes, htokens⟩ := lexes_render layout level v h endsNumber_nil 0 []
  have hrun := drives_value v.told (legible_told v h) [] found hlexemes
  rw [List.append_nil, List.append_nil, tokensFrom, List.reverse_cons, List.reverse_reverse]
    at htokens
  rw [read, readWithin, if_neg (head?_render layout level v), tokens, htokens, hrun]
  rfl

/-- A storable value, written in whatever layout, is read as itself. -/
theorem read_render (layout : Layout) (level : Nat) {v : Json} (h : v.Storable) :
    read (v.render layout level) = .ok v := by
  rw [read_render_told layout level (legible_of_storable v h), told_of_storable v h]

end Phrasing.Json
