/-
  Phrasing/Proofs/RoundRobin.lean
  ===============================
  **A provider serves each list around.**

  A provider may be asked for the next value of a list, for a whole list, and for
  the number of its default values.  The answer to a request for the next value
  hangs on the list and on how often that list was asked before, and on nothing
  else; so calls in between, refused ones among them, leave no trace in it.
-/
import Phrasing.Failure
import Phrasing.Proofs.Serving

namespace Phrasing.Provider

/-! ### Calls and answers -/

/-- What a provider may be asked. -/
inductive Call where
  | next (variant : Option Text)
  | values (variant : Option Text)
  /-- The number of default values. -/
  | size
  /-- The default values, one after the other. -/
  | iterate
deriving DecidableEq

inductive Answer where
  | served (v : Text)
  | listed (values : List Text)
  | counted (n : Nat)
  | refused (error : LookupError)
deriving DecidableEq

namespace Answer

def value? : Answer → Option Text
  | .served v => some v
  | _ => none

/-- The code under which a refusal is reported. -/
def code? : Answer → Option ErrorCode
  | .refused error => some (Failure.lookupReport error).code
  | _ => none

end Answer

def answer (p : Provider) : Call → Answer × Provider
  | .next variant =>
    match p.next variant with
    | (.ok v, p) => (.served v, p)
    | (.error e, p) => (.refused e, p)
  | .values variant =>
    match p.entity.values variant with
    | .ok values => (.listed values, p)
    | .error e => (.refused e, p)
  | .size => (.counted p.entity.defaults.length, p)
  | .iterate => (.listed p.entity.defaults, p)

/-- Answers calls in order. -/
def answerAll (p : Provider) : List Call → List Answer × Provider
  | [] => ([], p)
  | call :: rest =>
    let (answer, p) := p.answer call
    let (answers, p) := answerAll p rest
    (answer :: answers, p)

/-- The values that a row of calls got from a list. -/
def servedFrom (variant : Option Text) (calls : List Call) (answers : List Answer) : List Text :=
  (calls.zip answers).filterMap fun e => if e.1 = .next variant then e.2.value? else none

/-! ### The answer to a request for the next value -/

/-- What is answered to a request for the next value of a list that was asked so many times. -/
def serving (entity : Entity) (variant : Option Text) (asked : Nat) : Answer :=
  match entity.values variant with
  | .error e => .refused e
  | .ok values =>
    match values[asked % values.length]? with
    | some v => .served v
    | none => .refused .noValues

section Serving

variable {entity : Entity} {variant : Option Text}

theorem serving_of_error {e : LookupError} (h : entity.values variant = .error e) (asked : Nat) :
    serving entity variant asked = .refused e := by
  rw [serving, h]

theorem serving_of_nil (h : entity.values variant = .ok []) (asked : Nat) :
    serving entity variant asked = .refused .noValues := by
  rw [serving, h]
  rfl

theorem serving_of_ne_nil {values : List Text} (h : entity.values variant = .ok values)
    (hne : values ≠ []) (asked : Nat) :
    ∃ v, values[asked % values.length]? = some v ∧
      serving entity variant asked = .served v := by
  have hplace : asked % values.length < values.length :=
    Nat.mod_lt asked (List.length_pos_iff.mpr hne)
  have hfound := List.getElem?_eq_getElem hplace
  refine ⟨_, hfound, ?_⟩
  rw [serving, h]
  dsimp only
  rw [hfound]

/-- A list serves every request for a value or none. -/
theorem serving_cases (entity : Entity) (variant : Option Text) :
    (∃ values, entity.values variant = .ok values ∧ values ≠ [] ∧
      ∀ asked, ∃ v, values[asked % values.length]? = some v ∧
        serving entity variant asked = .served v) ∨
    ∃ e, ∀ asked, serving entity variant asked = .refused e := by
  cases hvalues : entity.values variant with
  | error e => exact Or.inr ⟨e, serving_of_error hvalues⟩
  | ok values =>
    by_cases hnil : values = []
    · subst hnil
      exact Or.inr ⟨.noValues, serving_of_nil hvalues⟩
    · exact Or.inl ⟨values, rfl, hnil, serving_of_ne_nil hvalues hnil⟩

theorem values_eq_error_iff {e : LookupError} :
    entity.values variant = .error e ↔
      ∃ name, variant = some name ∧ name ∉ entity.variants.keys ∧ e = .unknownVariant name := by
  cases variant with
  | none => simp [Entity.values]
  | some name =>
    rw [Entity.values]
    cases hfound : entity.variants.get? name with
    | some values =>
      have hkey : name ∈ entity.variants.keys :=
        Entries.exists_get?_iff_mem_keys.mp ⟨values, hfound⟩
      simp [hkey]
    | none =>
      have hkey : name ∉ entity.variants.keys := by
        intro hmem
        obtain ⟨values, hvalues⟩ := Entries.exists_get?_iff_mem_keys.mpr hmem
        rw [hfound] at hvalues
        cases hvalues
      simp [hkey, eq_comm]

end Serving

/-! ### One call -/

section Step

variable {p : Provider}

theorem answer_next (p : Provider) (variant : Option Text) :
    (p.answer (.next variant)).2 = (p.next variant).2 := by
  rw [answer]
  rcases p.next variant with ⟨e | v, q⟩ <;> rfl

/-- Only a request for the next value changes a provider. -/
theorem answer_of_ne_next {call : Call} (h : ∀ variant, call ≠ .next variant) :
    (p.answer call).2 = p := by
  cases call with
  | next variant => exact absurd rfl (h variant)
  | values variant =>
    rw [answer]
    cases p.entity.values variant <;> rfl
  | size => rfl
  | iterate => rfl

end Step

/-- A place is remembered only where the list has a value. -/
theorem cursors_next (p : Provider) (variant : Option Text) :
    (p.next variant).2.cursors = p.cursors ∨
      ∃ values place, p.entity.values variant = .ok values ∧ place < values.length ∧
        (p.next variant).2.cursors = p.cursors.insert variant place := by
  unfold next
  split
  · exact Or.inl rfl
  · rename_i values hvalues
    dsimp only
    split
    · exact Or.inl rfl
    · rename_i v hv
      obtain ⟨hplace, -⟩ := List.getElem?_eq_some_iff.mp hv
      exact Or.inr ⟨values, _, hvalues, hplace, rfl⟩

/-! ### Rows of calls -/

/-- Whether a provider stands where one of the entity does after the calls `asked`. -/
structure After (entity : Entity) (asked : List Call) (p : Provider) : Prop where
  same : p.entity = entity
  stands : p.StandsAfter fun variant => asked.count (.next variant)
  places : ∀ variant place, p.cursors.get? variant = some place →
    ∃ values, entity.values variant = .ok values ∧ place < values.length

theorem after_ofEntity (entity : Entity) : After entity [] (ofEntity entity) := by
  refine ⟨rfl, standsAfter_ofEntity entity, ?_⟩
  rintro variant place ⟨⟩

theorem count_append_next (asked : List Call) (variant other : Option Text) :
    (asked ++ [Call.next variant]).count (.next other) =
      if other = variant then asked.count (.next other) + 1 else asked.count (.next other) :=
  count_append_of_injective (fun _ _ h => Call.next.inj h) asked variant other

section Runs

variable {entity : Entity} {asked : List Call} {p : Provider}

theorem After.next (h : After entity asked p) (variant : Option Text) :
    After entity (asked ++ [.next variant]) (p.next variant).2 := by
  refine ⟨(entity_next p variant).trans h.same, ?_, ?_⟩
  · simp only [count_append_next]
    exact h.stands.next variant
  · intro other place hplace
    rcases cursors_next p variant with hkept | ⟨values, last, hvalues, hlast, hmoved⟩
    · rw [hkept] at hplace
      exact h.places other place hplace
    · rw [hmoved] at hplace
      by_cases hsame : variant = other
      · subst hsame
        rw [Entries.get?_insert_self] at hplace
        obtain rfl := Option.some.inj hplace
        exact ⟨values, h.same ▸ hvalues, hlast⟩
      · rw [Entries.get?_insert_of_ne hsame] at hplace
        exact h.places other place hplace

theorem After.answer (h : After entity asked p) (call : Call) :
    After entity (asked ++ [call]) (p.answer call).2 := by
  by_cases hnext : ∃ variant, call = .next variant
  · obtain ⟨variant, rfl⟩ := hnext
    rw [answer_next]
    exact h.next variant
  · have hother : ∀ variant, call ≠ .next variant := fun variant heq => hnext ⟨variant, heq⟩
    have hcount : ∀ variant, (asked ++ [call]).count (.next variant) =
        asked.count (.next variant) := fun variant => count_append_of_ne (hother variant)
    rw [answer_of_ne_next hother]
    refine ⟨h.same, ?_, h.places⟩
    simp only [hcount]
    exact h.stands

theorem answerAll_cons (p : Provider) (call : Call) (rest : List Call) :
    p.answerAll (call :: rest) =
      ((p.answer call).1 :: ((p.answer call).2.answerAll rest).1,
        ((p.answer call).2.answerAll rest).2) := rfl

theorem After.answerAll (h : After entity asked p) (calls : List Call) :
    After entity (asked ++ calls) (p.answerAll calls).2 := by
  induction calls generalizing asked p with
  | nil =>
    rw [List.append_nil]
    exact h
  | cons call rest ih =>
    have hrest := ih (h.answer call)
    rwa [List.append_assoc, List.singleton_append] at hrest

/-- The answer to a request for the next value hangs on how often the list was asked alone. -/
theorem After.answer_next (h : After entity asked p) (variant : Option Text) :
    (p.answer (.next variant)).1 = serving entity variant (asked.count (.next variant)) := by
  cases hvalues : entity.values variant with
  | error e =>
    have hlist := h.same.symm ▸ hvalues
    rw [serving_of_error hvalues, Provider.answer, next_of_error hlist]
  | ok values =>
    have hlist := h.same.symm ▸ hvalues
    by_cases hnil : values = []
    · subst hnil
      rw [serving_of_nil hvalues, Provider.answer, next_of_nil hlist]
    · obtain ⟨v, hv, hserving⟩ := serving_of_ne_nil hvalues hnil (asked.count (.next variant))
      obtain ⟨w, hw, hnext⟩ := next_of_lastPlace hlist hnil (h.stands variant values hlist hnil)
      rw [hserving, Provider.answer, hnext]
      exact congrArg Answer.served (Option.some.inj (hw.symm.trans hv))

theorem After.answer_of_ne_next (h : After entity asked p) {call : Call}
    (hcall : ∀ variant, call ≠ .next variant) :
    (p.answer call).1 = ((ofEntity entity).answer call).1 := by
  obtain ⟨rfl, -, -⟩ := h
  cases call with
  | next variant => exact absurd rfl (hcall variant)
  | values variant =>
    simp only [Provider.answer, ofEntity]
    cases p.entity.values variant <;> rfl
  | size => rfl
  | iterate => rfl

/-- The call at a place is answered by the provider as the calls before it left it. -/
theorem getElem?_answerAll (p : Provider) {calls : List Call} {i : Nat} {call : Call}
    (hi : calls[i]? = some call) :
    (p.answerAll calls).1[i]? = some ((p.answerAll (calls.take i)).2.answer call).1 := by
  induction calls generalizing p i with
  | nil => cases hi
  | cons first rest ih =>
    rw [answerAll_cons]
    cases i with
    | zero =>
      obtain rfl := Option.some.inj hi
      rfl
    | succ i => exact ih (p.answer first).2 hi

theorem servedFrom_cons (variant : Option Text) (call : Call) (answer : Answer)
    (calls : List Call) (answers : List Answer) :
    servedFrom variant (call :: calls) (answer :: answers) =
      (if call = .next variant then answer.value? else none).toList ++
        servedFrom variant calls answers := by
  rw [servedFrom, servedFrom, List.zip_cons_cons, List.filterMap_cons]
  dsimp only
  cases (if call = .next variant then answer.value? else none) <;> rfl

/-- The values served from a list are those that it has, one after the other, counted around. -/
theorem After.served (h : After entity asked p) {variant : Option Text} (calls : List Call)
    {j : Nat} {v : Text} (hv : (servedFrom variant calls (p.answerAll calls).1)[j]? = some v) :
    serving entity variant (asked.count (.next variant) + j) = .served v := by
  -- What was asked before is generalised along with the provider: each request adds one to both.
  induction calls generalizing asked p j with
  | nil => cases hv
  | cons call rest ih =>
    have hrest := @ih (asked ++ [call]) _ (h.answer call)
    rw [answerAll_cons, servedFrom_cons] at hv
    by_cases hcall : call = .next variant
    · subst hcall
      rw [if_pos rfl, h.answer_next] at hv
      simp only [count_append_next, if_true] at hrest
      rcases serving_cases entity variant with ⟨values, -, -, hserves⟩ | ⟨e, hrefuses⟩
      · obtain ⟨w, -, hserving⟩ := hserves (asked.count (.next variant))
        rw [hserving] at hv
        cases j with
        | zero =>
          obtain rfl := Option.some.inj hv
          exact hserving
        | succ j =>
          rw [Nat.add_comm j, ← Nat.add_assoc]
          exact hrest hv
      · rw [hrefuses] at hv
        exact absurd (hrest hv) (by rw [hrefuses]; exact Answer.noConfusion)
    · have hcount : (asked ++ [call]).count (.next variant) = asked.count (.next variant) :=
        count_append_of_ne hcall
      rw [if_neg hcall] at hv
      rw [hcount] at hrest
      exact hrest hv

end Runs

/-! ### Serving around -/

/-- How the answers to a row of calls, and the provider after it, hang on the entity. -/
structure RoundRobin (entity : Entity) (calls : List Call) (answers : List Answer)
    (after : Provider) : Prop where
  /-- The `j`-th value served from a list is the one at `j`, counted around the list. -/
  served : ∀ variant (j : Nat) v, (servedFrom variant calls answers)[j]? = some v →
    ∃ values, entity.values variant = .ok values ∧ values[j % values.length]? = some v
  /-- A request for the next value is refused for one of two reasons, and served otherwise. -/
  next : ∀ (i : Nat) variant, calls[i]? = some (.next variant) → ∃ answer,
    answers[i]? = some answer ∧
      (answer.code? = some .notFound ↔
        ∃ name, variant = some name ∧ name ∉ entity.variants.keys) ∧
      (answer.code? = some .schema ↔ entity.values variant = .ok []) ∧
      ((∃ v, answer = .served v) ↔ ∃ values, entity.values variant = .ok values ∧ values ≠ [])
  /-- Everything else is answered at any time as at first. -/
  steady : ∀ (i : Nat) call, calls[i]? = some call → (∀ variant, call ≠ .next variant) →
    answers[i]? = some ((ofEntity entity).answer call).1
  /-- Every place that is remembered lies in its list. -/
  places : ∀ variant place, after.cursors.get? variant = some place →
    ∃ values, entity.values variant = .ok values ∧ place < values.length

theorem code?_serving (entity : Entity) (variant : Option Text) (asked : Nat) :
    ((serving entity variant asked).code? = some .notFound ↔
      ∃ name, variant = some name ∧ name ∉ entity.variants.keys) ∧
    ((serving entity variant asked).code? = some .schema ↔ entity.values variant = .ok []) ∧
    ((∃ v, serving entity variant asked = .served v) ↔
      ∃ values, entity.values variant = .ok values ∧ values ≠ []) := by
  have hknown : ∀ values, entity.values variant = .ok values →
      ¬ ∃ name, variant = some name ∧ name ∉ entity.variants.keys := by
    rintro values hvalues ⟨name, rfl, hname⟩
    rw [values_eq_error_iff.mpr ⟨name, rfl, hname, rfl⟩] at hvalues
    cases hvalues
  cases hvalues : entity.values variant with
  | error e =>
    obtain ⟨name, hvariant, hname, rfl⟩ := values_eq_error_iff.mp hvalues
    rw [serving_of_error hvalues]
    refine ⟨iff_of_true rfl ⟨name, hvariant, hname⟩, ?_, ?_⟩
    · simp [Answer.code?, Failure.lookupReport]
    · simp
  | ok values =>
    have hno := hknown values hvalues
    by_cases hnil : values = []
    · subst hnil
      rw [serving_of_nil hvalues]
      refine ⟨iff_of_false (by decide) hno, iff_of_true rfl rfl, ?_⟩
      simp
    · obtain ⟨v, -, hserving⟩ := serving_of_ne_nil hvalues hnil asked
      rw [hserving]
      have hserved : (Answer.served v).code? = none := rfl
      rw [hserved]
      refine ⟨iff_of_false nofun hno, ?_, iff_of_true ⟨v, rfl⟩ ⟨values, rfl, hnil⟩⟩
      exact iff_of_false nofun fun heq => hnil (Except.ok.inj heq)

theorem roundRobin_answerAll (entity : Entity) (calls : List Call) :
    RoundRobin entity calls ((ofEntity entity).answerAll calls).1
      ((ofEntity entity).answerAll calls).2 := by
  have hstart := after_ofEntity entity
  refine ⟨?_, ?_, ?_, (hstart.answerAll calls).places⟩
  · intro variant j v hv
    have hserving := hstart.served calls hv
    rw [List.count_nil, Nat.zero_add] at hserving
    rcases serving_cases entity variant with ⟨values, hvalues, -, hserves⟩ | ⟨e, hrefuses⟩
    · obtain ⟨w, hw, hserved⟩ := hserves j
      obtain rfl := Answer.served.inj (hserving.symm.trans hserved)
      exact ⟨values, hvalues, hw⟩
    · rw [hrefuses] at hserving
      cases hserving
  · intro i variant hi
    refine ⟨_, getElem?_answerAll _ hi, ?_⟩
    rw [(hstart.answerAll (calls.take i)).answer_next]
    exact code?_serving entity variant _
  · intro i call hi hcall
    rw [getElem?_answerAll _ hi, (hstart.answerAll (calls.take i)).answer_of_ne_next hcall]

/-- A call that is refused, or that asks for something else, leaves no trace in the next value. -/
theorem answer_next_of_between (entity : Entity) (before later : List Call) (call : Call)
    (variant : Option Text)
    (h : call ≠ .next variant ∨
      ∃ e, (((ofEntity entity).answerAll before).2.answer call).1 = .refused e) :
    (((ofEntity entity).answerAll (before ++ call :: later)).2.answer (.next variant)).1 =
      (((ofEntity entity).answerAll (before ++ later)).2.answer (.next variant)).1 := by
  have hstart := after_ofEntity entity
  rw [(hstart.answerAll _).answer_next, (hstart.answerAll _).answer_next]
  by_cases hcall : call = .next variant
  · subst hcall
    obtain ⟨e, hrefused⟩ := h.resolve_left fun hne => hne rfl
    rw [(hstart.answerAll before).answer_next] at hrefused
    rcases serving_cases entity variant with ⟨values, -, -, hserves⟩ | ⟨found, hrefuses⟩
    · obtain ⟨v, -, hserving⟩ := hserves (([] ++ before).count (Call.next variant))
      rw [hserving] at hrefused
      cases hrefused
    · rw [hrefuses, hrefuses]
  · simp [List.count_cons_of_ne hcall]

/-- **A provider serves each list around.**  Whatever a provider of an entity is asked, in whatever
order, each of its lists is served from the start and around, a request is refused exactly if there
is no such list or nothing in it, and a call that is refused or asks for something else changes no
later answer. -/
theorem serves_round_robin (synonyms : SynonymTable) (definition : Json) (calls : List Call) :
    let entity := Entity.ofJson synonyms definition
    let p := ofEntity entity
    RoundRobin entity calls (p.answerAll calls).1 (p.answerAll calls).2 ∧
      ∀ (before later : List Call) (call : Call) (variant : Option Text),
        (call ≠ .next variant ∨ ∃ e, ((p.answerAll before).2.answer call).1 = .refused e) →
          ((p.answerAll (before ++ call :: later)).2.answer (.next variant)).1 =
            ((p.answerAll (before ++ later)).2.answer (.next variant)).1 :=
  ⟨roundRobin_answerAll _ calls, answer_next_of_between _⟩

/-- A list may be called as its absence is spelled elsewhere; it is still another list. -/
example :
    let p := ofEntity ⟨[], ["a", "b"], [("None", ["c"]), ("v", [])]⟩
    (p.answerAll [.next none, .next (some "None"), .next (some "v"), .next (some "w"), .next none,
      .next (some "None"), .next none]).1 =
      [.served "a", .served "c", .refused .noValues, .refused (.unknownVariant "w"), .served "b",
        .served "c", .served "a"] := by
  decide

end Phrasing.Provider
