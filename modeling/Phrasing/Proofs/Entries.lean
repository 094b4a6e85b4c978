/-
  Phrasing/Proofs/Entries.lean
  ============================
  **Laws of ordered entries.**

  Putting a value under a key keeps the order of the keys and never makes a key
  appear twice.  Laying entries over others whose keys are different puts them
  behind, once each.
-/
import Phrasing.Entries

namespace Phrasing.Entries

universe u v w

variable {κ : Type u} {α : Type v}

/-! ### Keys -/

@[simp] theorem keys_nil : keys ([] : Entries κ α) = [] := rfl

@[simp] theorem keys_cons (e : κ × α) (entries : Entries κ α) :
    keys (e :: entries) = e.1 :: keys entries := rfl

theorem mem_keys_of_mem {entries : Entries κ α} {e : κ × α} (h : e ∈ entries) :
    e.1 ∈ keys entries := List.mem_map_of_mem h

theorem not_mem_keys_of_wellFormed_append {entries rest : Entries κ α} {e : κ × α}
    (h : Entries.WellFormed (entries ++ e :: rest)) : e.1 ∉ entries.keys := by
  rw [WellFormed, keys, List.map_append, List.map_cons, List.nodup_append] at h
  intro hkey
  exact h.2.2 e.1 hkey e.1 List.mem_cons_self rfl

@[simp] theorem keys_mapValues {β : Type w} (entries : Entries κ α) (f : κ → α → β) :
    keys (entries.mapValues f) = keys entries := by
  rw [keys, mapValues, List.map_map]
  rfl

variable [DecidableEq κ]

theorem mem_keys_insert {entries : Entries κ α} {key other : κ} {value : α} :
    other ∈ keys (entries.insert key value) ↔ other = key ∨ other ∈ keys entries := by
  induction entries with
  | nil => simp [insert]
  | cons e rest ih =>
    obtain ⟨k, v⟩ := e
    unfold insert
    split
    · rename_i hk
      simp [hk]
    · rw [keys_cons, keys_cons, List.mem_cons, List.mem_cons, ih]
      exact or_left_comm

theorem mem_keys_merge {base overlay : Entries κ α} {key : κ} :
    key ∈ keys (merge base overlay) ↔ key ∈ keys base ∨ key ∈ keys overlay := by
  induction overlay generalizing base with
  | nil => simp [merge]
  | cons e rest ih =>
    have hstep : merge base (e :: rest) = merge (base.insert e.1 e.2) rest := rfl
    rw [hstep, ih, mem_keys_insert, keys_cons, List.mem_cons, or_assoc, or_left_comm]

/-! ### Entries behind others -/

theorem insert_append_of_not_mem {entries rest : Entries κ α} {key : κ} {value : α}
    (h : key ∉ keys entries) :
    insert (entries ++ rest) key value = entries ++ rest.insert key value := by
  induction entries with
  | nil => rfl
  | cons e entries ih =>
    obtain ⟨k, v⟩ := e
    rw [keys_cons, List.mem_cons, not_or] at h
    rw [List.cons_append, insert, if_neg (Ne.symm h.1), ih h.2, List.cons_append]

theorem insert_of_not_mem {entries : Entries κ α} {key : κ} {value : α}
    (h : key ∉ keys entries) : entries.insert key value = entries ++ [(key, value)] := by
  have happend : insert (entries ++ []) key value = entries ++ insert [] key value :=
    insert_append_of_not_mem h
  rwa [List.append_nil] at happend

/-- Entries with other keys than the base are laid behind it. -/
theorem merge_append {base rest overlay : Entries κ α}
    (h : ∀ key ∈ keys overlay, key ∉ keys base) :
    merge (base ++ rest) overlay = base ++ merge rest overlay := by
  induction overlay generalizing rest with
  | nil => rfl
  | cons e overlay ih =>
    have hfirst : e.1 ∉ keys base := h e.1 List.mem_cons_self
    have hrest : ∀ key ∈ keys overlay, key ∉ keys base := fun key hkey =>
      h key (List.mem_cons_of_mem _ hkey)
    have hstep : merge (base ++ rest) (e :: overlay) =
        merge ((base ++ rest).insert e.1 e.2) overlay := rfl
    rw [hstep, insert_append_of_not_mem hfirst, ih hrest]
    rfl

theorem wellFormed_insert {entries : Entries κ α} (h : entries.WellFormed) (key : κ) (value : α) :
    (entries.insert key value).WellFormed := by
  induction entries with
  | nil => simp [insert, WellFormed]
  | cons e rest ih =>
    obtain ⟨k, v⟩ := e
    obtain ⟨hk, hrest⟩ := List.nodup_cons.mp h
    unfold insert
    split
    · exact h
    · rename_i hne
      refine List.nodup_cons.mpr ⟨fun hmem => ?_, ih hrest⟩
      rcases mem_keys_insert.mp hmem with heq | hold
      · exact hne heq
      · exact hk hold

theorem wellFormed_merge {base : Entries κ α} (h : base.WellFormed) (overlay : Entries κ α) :
    (merge base overlay).WellFormed := by
  induction overlay generalizing base with
  | nil => exact h
  | cons e rest ih => exact ih (wellFormed_insert h e.1 e.2)

/-- Entries without a repeated key, laid over nothing, are themselves. -/
theorem merge_nil_of_wellFormed {entries : Entries κ α} (h : entries.WellFormed) :
    merge [] entries = entries := by
  induction entries with
  | nil => rfl
  | cons e rest ih =>
    obtain ⟨hfirst, hrest⟩ := List.nodup_cons.mp h
    have hother : ∀ key ∈ keys rest, key ∉ keys [e] := by
      intro key hkey hmem
      rw [List.mem_singleton.mp hmem] at hkey
      exact hfirst hkey
    have hstep : merge [] (e :: rest) = merge ([e] ++ []) rest := rfl
    rw [hstep, merge_append hother, ih hrest]
    rfl

/-! ### Entries left out -/

theorem mem_keys_without {entries : Entries κ α} {dropped : List κ} {key : κ} :
    key ∈ keys (entries.without dropped) ↔ key ∈ keys entries ∧ key ∉ dropped := by
  simp only [keys, without, List.mem_map, List.mem_filter, decide_eq_true_eq]
  constructor
  · rintro ⟨e, ⟨hmem, hkeep⟩, rfl⟩
    exact ⟨⟨e, hmem, rfl⟩, hkeep⟩
  · rintro ⟨⟨e, hmem, rfl⟩, hkeep⟩
    exact ⟨e, ⟨hmem, hkeep⟩, rfl⟩

theorem without_append (entries others : Entries κ α) (dropped : List κ) :
    without (entries ++ others) dropped = entries.without dropped ++ others.without dropped :=
  List.filter_append entries others

theorem without_eq_self {entries : Entries κ α} {dropped : List κ}
    (h : ∀ key ∈ keys entries, key ∉ dropped) : entries.without dropped = entries := by
  refine List.filter_eq_self.mpr fun e he => ?_
  exact decide_eq_true (h e.1 (mem_keys_of_mem he))

theorem without_eq_nil {entries : Entries κ α} {dropped : List κ}
    (h : ∀ key ∈ keys entries, key ∈ dropped) : entries.without dropped = [] := by
  refine List.filter_eq_nil_iff.mpr fun e he hkeep => ?_
  exact of_decide_eq_true hkeep (h e.1 (mem_keys_of_mem he))

theorem without_cons_of_mem {e : κ × α} {rest : Entries κ α} {dropped : List κ}
    (h : e.1 ∈ dropped) : without (e :: rest) dropped = without rest dropped :=
  List.filter_cons_of_neg (by simpa using h)

theorem without_cons_of_not_mem {e : κ × α} {rest : Entries κ α} {dropped : List κ}
    (h : e.1 ∉ dropped) : without (e :: rest) dropped = e :: without rest dropped :=
  List.filter_cons_of_pos (by simpa using h)

theorem without_without (entries : Entries κ α) (dropped others : List κ) :
    (entries.without dropped).without others = entries.without (dropped ++ others) := by
  simp only [without, List.filter_filter]
  refine List.filter_congr fun e _ => ?_
  simp [Bool.and_comm]

theorem wellFormed_without {entries : Entries κ α} (h : entries.WellFormed) (dropped : List κ) :
    (entries.without dropped).WellFormed := by
  have hkeys : (keys (entries.without dropped)).Sublist (keys entries) :=
    List.filter_sublist.map Prod.fst
  exact h.sublist hkeys

/-! ### Looking up -/

theorem mem_of_get? {entries : Entries κ α} {key : κ} {v : α} (h : entries.get? key = some v) :
    (key, v) ∈ entries := by
  induction entries with
  | nil => cases h
  | cons e rest ih =>
    obtain ⟨k, w⟩ := e
    unfold get? at h
    split at h
    · rename_i hk
      obtain rfl := hk
      obtain rfl := Option.some.inj h
      exact List.mem_cons_self
    · exact List.mem_cons_of_mem _ (ih h)

theorem get?_eq_some_iff {entries : Entries κ α} (h : entries.WellFormed) {key : κ} {v : α} :
    entries.get? key = some v ↔ (key, v) ∈ entries := by
  refine ⟨mem_of_get?, fun hmem => ?_⟩
  induction entries with
  | nil => cases hmem
  | cons e rest ih =>
    obtain ⟨k, w⟩ := e
    obtain ⟨hfirst, hrest⟩ := List.nodup_cons.mp h
    unfold get?
    rcases List.mem_cons.mp hmem with heq | hlater
    · obtain ⟨rfl, rfl⟩ := Prod.mk.inj heq
      rw [if_pos rfl]
    · have hkey : key ∈ keys rest := mem_keys_of_mem hlater
      have hne : k ≠ key := fun hk => hfirst (hk ▸ hkey)
      rw [if_neg hne, ih hrest hlater]

theorem exists_get?_iff_mem_keys {entries : Entries κ α} {key : κ} :
    (∃ v, entries.get? key = some v) ↔ key ∈ keys entries := by
  induction entries with
  | nil =>
    constructor
    · rintro ⟨v, ⟨⟩⟩
    · intro h
      cases h
  | cons e rest ih =>
    obtain ⟨k, w⟩ := e
    rw [keys_cons, List.mem_cons, get?]
    by_cases hk : k = key
    · rw [if_pos hk]
      exact ⟨fun _ => Or.inl hk.symm, fun _ => ⟨w, rfl⟩⟩
    · rw [if_neg hk, ih, or_iff_right (Ne.symm hk)]

theorem get?_eq_none_of_not_mem {entries : Entries κ α} {key : κ} (h : key ∉ keys entries) :
    entries.get? key = none := by
  rw [Option.eq_none_iff_forall_ne_some]
  intro v hv
  exact h (exists_get?_iff_mem_keys.mp ⟨v, hv⟩)

theorem get?_cons_of_ne {k key : κ} (h : k ≠ key) (v : α) (rest : Entries κ α) :
    get? ((k, v) :: rest) key = rest.get? key := if_neg h

theorem has_iff_mem_keys {entries : Entries κ α} {key : κ} :
    entries.has key = true ↔ key ∈ keys entries := by
  rw [has, Option.isSome_iff_exists, exists_get?_iff_mem_keys]

/-- An entry may be moved to the front. -/
theorem perm_cons_without {entries : Entries κ α} (h : entries.WellFormed) {key : κ} {v : α}
    (hget : entries.get? key = some v) : entries.Perm ((key, v) :: entries.without [key]) := by
  induction entries with
  | nil => cases hget
  | cons e rest ih =>
    obtain ⟨k, w⟩ := e
    obtain ⟨hfirst, hrest⟩ := List.nodup_cons.mp h
    unfold get? at hget
    split at hget
    · rename_i hk
      obtain rfl := hk
      obtain rfl := Option.some.inj hget
      rw [without_cons_of_mem List.mem_cons_self, without_eq_self]
      intro other hother hmem
      rw [List.mem_singleton.mp hmem] at hother
      exact hfirst hother
    · rename_i hk
      have hkeep : (k, w).1 ∉ [key] := fun hmem => hk (List.mem_singleton.mp hmem)
      rw [without_cons_of_not_mem hkeep]
      exact ((ih hrest hget).cons (k, w)).trans (List.Perm.swap (key, v) (k, w) _)

theorem get?_without_of_not_mem {entries : Entries κ α} {dropped : List κ} {key : κ}
    (h : key ∉ dropped) : (entries.without dropped).get? key = entries.get? key := by
  induction entries with
  | nil => rfl
  | cons e rest ih =>
    obtain ⟨k, w⟩ := e
    by_cases hk : k ∈ dropped
    · have hne : k ≠ key := fun heq => h (heq ▸ hk)
      rw [without_cons_of_mem hk, ih, get?, if_neg hne]
    · rw [without_cons_of_not_mem hk, get?, get?, ih]

theorem get?_append_of_not_mem {entries others : Entries κ α} {key : κ}
    (h : key ∉ keys entries) : get? (entries ++ others) key = others.get? key := by
  induction entries with
  | nil => rfl
  | cons e rest ih =>
    obtain ⟨k, v⟩ := e
    rw [keys_cons, List.mem_cons, not_or] at h
    rw [List.cons_append, get?, if_neg (Ne.symm h.1), ih h.2]

/-! ### Looking up what was put in -/

theorem get?_insert_self (entries : Entries κ α) (key : κ) (v : α) :
    (entries.insert key v).get? key = some v := by
  induction entries with
  | nil => rw [insert, get?, if_pos rfl]
  | cons e rest ih =>
    obtain ⟨k, w⟩ := e
    by_cases hk : k = key
    · rw [insert, if_pos hk, get?, if_pos hk]
    · rw [insert, if_neg hk, get?, if_neg hk, ih]

theorem get?_insert_of_ne {key other : κ} (h : key ≠ other) (entries : Entries κ α) (v : α) :
    (entries.insert key v).get? other = entries.get? other := by
  induction entries with
  | nil => exact if_neg h
  | cons e rest ih =>
    obtain ⟨k, w⟩ := e
    by_cases hk : k = key
    · have hne : k ≠ other := fun heq => h (hk.symm.trans heq)
      rw [insert, if_pos hk, get?, get?, if_neg hne, if_neg hne]
    · rw [insert, if_neg hk, get?, get?, ih]

/-- Of two values that are put under one key, the later one stays. -/
theorem insert_insert (entries : Entries κ α) (key : κ) (v w : α) :
    (entries.insert key v).insert key w = entries.insert key w := by
  induction entries with
  | nil => simp [insert]
  | cons e rest ih =>
    obtain ⟨k, old⟩ := e
    by_cases hk : k = key
    · simp [insert, hk]
    · simp [insert, hk, ih]

/-- A value that is replaced leaves the keys as they are. -/
theorem keys_insert_of_get? {entries : Entries κ α} {key : κ} {old : α}
    (h : entries.get? key = some old) (v : α) : keys (entries.insert key v) = keys entries := by
  induction entries with
  | nil => cases h
  | cons e rest ih =>
    obtain ⟨k, w⟩ := e
    by_cases hk : k = key
    · rw [insert, if_pos hk, keys_cons, keys_cons]
    · rw [get?, if_neg hk] at h
      rw [insert, if_neg hk, keys_cons, keys_cons, ih h]

theorem modify_of_not_mem {entries : Entries κ α} {key : κ} (h : key ∉ keys entries)
    (f : α → α) : entries.modify key f = entries := by
  induction entries with
  | nil => rfl
  | cons e rest ih =>
    rw [keys_cons, List.mem_cons, not_or] at h
    have hrest : rest.map (fun e => if e.1 = key then (e.1, f e.2) else e) = rest := ih h.2
    rw [modify, List.map_cons, if_neg (Ne.symm h.1), hrest]

/-- A value is put in its key's place, or at the end if the key is new. -/
theorem insert_eq_ite {entries : Entries κ α} (h : entries.WellFormed) (key : κ) (v : α) :
    entries.insert key v =
      if entries.has key then entries.modify key fun _ => v else entries ++ [(key, v)] := by
  induction entries with
  | nil => rfl
  | cons e rest ih =>
    obtain ⟨k, w⟩ := e
    obtain ⟨hfirst, hrest⟩ := List.nodup_cons.mp h
    by_cases hk : k = key
    · subst hk
      have hkeep : rest.map (fun e => if e.1 = k then (e.1, v) else e) = rest :=
        modify_of_not_mem hfirst fun _ => v
      have hhas : has ((k, w) :: rest) k = true := by rw [has, get?, if_pos rfl, Option.isSome_some]
      rw [insert, if_pos rfl, if_pos hhas, modify, List.map_cons, if_pos rfl, hkeep]
    · have hhas : has ((k, w) :: rest) key = has rest key := by rw [has, get?, if_neg hk, has]
      have hmodify : modify ((k, w) :: rest) key (fun _ => v) =
          (k, w) :: modify rest key fun _ => v := by
        rw [modify, List.map_cons, if_neg hk]
        rfl
      rw [insert, if_neg hk, ih hrest, hhas, hmodify]
      split
      · rfl
      · rfl

theorem get?_mapValues {β : Type w} (entries : Entries κ α)
    (f : κ → α → β) (key : κ) :
    (entries.mapValues f).get? key = (entries.get? key).map (f key) := by
  induction entries with
  | nil => rfl
  | cons e rest ih =>
    obtain ⟨k, v⟩ := e
    have hcons : mapValues ((k, v) :: rest) f = (k, f k v) :: mapValues rest f := rfl
    rw [hcons]
    by_cases hk : k = key
    · subst hk
      rw [get?, if_pos rfl, get?, if_pos rfl, Option.map_some]
    · rw [get?_cons_of_ne hk, get?_cons_of_ne hk, ih]

/-- Of lists that are laid end to end, one for each key, a test that tells one key's items from all
others picks out that key's list. -/
theorem filter_flatMap {β : Type w} {entries : Entries κ α}
    (h : entries.WellFormed) {f : κ × α → List β} {p : β → Bool} {key : κ}
    (hown : ∀ v, (key, v) ∈ entries → ∀ b ∈ f (key, v), p b = true)
    (hother : ∀ e ∈ entries, e.1 ≠ key → ∀ b ∈ f e, p b = false) :
    (entries.flatMap f).filter p = (entries.get? key).elim [] fun v => f (key, v) := by
  induction entries with
  | nil => rfl
  | cons e rest ih =>
    obtain ⟨k, v⟩ := e
    obtain ⟨hfirst, hrest⟩ := List.nodup_cons.mp h
    have htail := ih hrest (fun w hw => hown w (List.mem_cons_of_mem _ hw))
      fun e he => hother e (List.mem_cons_of_mem _ he)
    rw [List.flatMap_cons, List.filter_append, htail]
    by_cases hk : k = key
    · subst hk
      have hnone : Entries.get? rest k = none := get?_eq_none_of_not_mem hfirst
      rw [List.filter_eq_self.mpr (hown v List.mem_cons_self), hnone, Option.elim_none,
        List.append_nil, get?, if_pos rfl, Option.elim_some]
    · have hskip : (f (k, v)).filter p = [] := by
        refine List.filter_eq_nil_iff.mpr fun b hb => ?_
        rw [hother (k, v) List.mem_cons_self hk b hb]
        exact Bool.false_ne_true
      rw [hskip, List.nil_append, get?_cons_of_ne hk]

/-! ### Values that are replaced -/

theorem keys_modify (entries : Entries κ α) (key : κ) (f : α → α) :
    keys (entries.modify key f) = keys entries := by
  rw [keys, modify, List.map_map]
  apply List.map_congr_left
  intro e _
  dsimp only [Function.comp_apply]
  split
  · rfl
  · rfl

theorem get?_modify (entries : Entries κ α) (key other : κ) (f : α → α) :
    (entries.modify key f).get? other =
      if other = key then (entries.get? other).map f else entries.get? other := by
  induction entries with
  | nil => simp [modify, get?]
  | cons e rest ih =>
    obtain ⟨k, v⟩ := e
    have hstep : modify ((k, v) :: rest) key f =
        (if k = key then (k, f v) else (k, v)) :: modify rest key f := rfl
    rw [hstep]
    by_cases hother : k = other
    · subst hother
      by_cases hk : k = key
      · rw [if_pos hk, get?, if_pos rfl, get?, if_pos rfl, if_pos hk]
        rfl
      · rw [if_neg hk, get?, if_pos rfl, get?, if_pos rfl, if_neg hk]
    · have hfirst : (if k = key then (k, f v) else (k, v)).1 = k := by
        split
        · rfl
        · rfl
      rw [get?, hfirst, if_neg hother, ih, get?_cons_of_ne hother]

end Phrasing.Entries
