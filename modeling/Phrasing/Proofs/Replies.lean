/-
  Phrasing/Proofs/Replies.lean
  ============================
  **What a reply hangs on.**

  A session carries two things from one request to the next: the events it
  collected and the places of its providers.  So only requests for the next value
  of a list and for the collected events can tell what was asked before.  Of a
  session after any row of requests we say how often it expanded and how often
  each list was asked; every reply, and everything collected, follows from that.
-/
import Phrasing.Proofs.Run
import Phrasing.Proofs.Serving

namespace Phrasing

/-! ### Kinds of requests -/

namespace Request

/-- Whether the request has the intents expanded. -/
def expands : Request → Bool
  | .storedIntents | .expandedIntents | .texts | .rows | .table => true
  | _ => false

/-- Whether the request asks for something that earlier requests change. -/
def seesHistory : Request → Bool
  | .next _ _ | .events | .eventCount _ => true
  | _ => false

end Request

/-- The values that a row of requests got from a list of an entity. -/
def servedFrom (entity : Text) (variant : Option Text) :
    List Request → List Reply → List Text
  | request :: requests, reply :: replies =>
    match reply with
    | .value v =>
      if request = .next entity variant then v :: servedFrom entity variant requests replies
      else servedFrom entity variant requests replies
    | _ => servedFrom entity variant requests replies
  | _, _ => []

theorem count_append_next (asked : List Request) (entity : Text) (variant other : Option Text) :
    (asked ++ [Request.next entity variant]).count (Request.next entity other) =
      if other = variant then asked.count (Request.next entity other) + 1
      else asked.count (Request.next entity other) :=
  count_append_of_injective (fun _ _ h => (Request.next.inj h).2) asked variant other

namespace Session

/-- An entity of the session's corpus by name. -/
def entityNamed (s : Session) (name : Text) : Except LookupError Entity :=
  (s.provider name).map Provider.entity

/-! ### What a request does to a session -/

theorem perform_of_expands {s : Session} {request : Request} (h : request.expands = true) :
    (s.perform request).2 = { s with events := s.events ++ (s.corpus.expand s.cap).events } := by
  cases request with
  | storedIntents | expandedIntents | texts | rows | table => rfl
  | entityNames | synonymNames | intents | synonyms | values | next | props | variantNames | size
  | counts | events | eventCount => cases h

theorem perform_of_not_expands {s : Session} {request : Request} (h : request.expands = false)
    (hnext : ∀ entity variant, request ≠ .next entity variant) :
    (s.perform request).2 = s := by
  cases request with
  | storedIntents | expandedIntents | texts | rows | table => cases h
  | next entity variant => exact absurd rfl (hnext entity variant)
  | entityNames | synonymNames | intents | synonyms | values | props | variantNames | size
  | counts | events | eventCount => rfl

section Next

variable {s : Session} {name : Text} {variant : Option Text}

theorem perform_next_of_unknown {e : LookupError} (h : s.provider name = .error e) :
    s.perform (.next name variant) = (.failed (.lookup e), s) := by
  rw [perform, h]

theorem perform_next {p : Provider} (h : s.provider name = .ok p) :
    s.perform (.next name variant) =
      (found .value (p.next variant).1,
        { s with providers := s.providers.insert name (p.next variant).2 }) := by
  rw [perform, h]

theorem provider_eq_ok_iff {p : Provider} :
    s.provider name = .ok p ↔ s.providers.get? name = some p := by
  unfold provider
  cases s.providers.get? name with
  | none => simp
  | some found => simp

end Next

/-! ### Where a session stands -/

/-- Whether `s` is where the session `start` stands after the requests `asked`. -/
structure After (start : Session) (asked : List Request) (s : Session) : Prop where
  corpus : s.corpus = start.corpus
  cap : s.cap = start.cap
  /-- One expansion's events were collected for each expansion. -/
  events : s.events = start.events ++ (List.replicate (asked.countP Request.expands)
    (start.corpus.expand start.cap).events).flatten
  names : s.providers.keys = start.providers.keys
  entities : ∀ name, s.entityNamed name = start.entityNamed name
  /-- Each list was asked as often as there are requests for its next value. -/
  places : ∀ name p, s.provider name = .ok p →
    p.StandsAfter fun variant => asked.count (.next name variant)

section Steps

variable {start s : Session} {asked : List Request}

theorem countP_of_not_expands {request : Request} (h : request.expands = false) :
    (asked ++ [request]).countP Request.expands = asked.countP Request.expands := by
  simp [List.countP_append, h]

theorem After.places_of_ne_next (h : After start asked s) {request : Request}
    (hnext : ∀ entity variant, request ≠ .next entity variant) (name : Text) (p : Provider)
    (hp : s.provider name = .ok p) :
    p.StandsAfter fun variant => (asked ++ [request]).count (.next name variant) := by
  have hcount : ∀ variant, (asked ++ [request]).count (.next name variant) =
      asked.count (.next name variant) := by
    intro variant
    exact count_append_of_ne (hnext name variant)
  simp only [hcount]
  exact h.places name p hp

theorem After.expand (h : After start asked s) {request : Request}
    (hrequest : request.expands = true) :
    After start (asked ++ [request]) (s.perform request).2 := by
  have hnext : ∀ entity variant, request ≠ .next entity variant := by
    rintro entity variant rfl
    cases hrequest
  have hcount : (asked ++ [request]).countP Request.expands =
      asked.countP Request.expands + 1 := by
    simp [List.countP_append, hrequest]
  rw [perform_of_expands hrequest]
  refine ⟨h.corpus, h.cap, ?_, h.names, h.entities, h.places_of_ne_next hnext⟩
  rw [hcount, List.replicate_succ', List.flatten_append, List.flatten_singleton,
    ← List.append_assoc, ← h.events, h.corpus, h.cap]

theorem After.stay (h : After start asked s) {request : Request}
    (hrequest : request.expands = false)
    (hnext : ∀ entity variant, request ≠ .next entity variant) :
    After start (asked ++ [request]) (s.perform request).2 := by
  rw [perform_of_not_expands hrequest hnext]
  refine ⟨h.corpus, h.cap, ?_, h.names, h.entities, h.places_of_ne_next hnext⟩
  rw [countP_of_not_expands hrequest, h.events]

/-- Serving changes one provider, and of that provider only the places. -/
theorem After.serve (h : After start asked s) (name : Text) (variant : Option Text) :
    After start (asked ++ [Request.next name variant]) (s.perform (.next name variant)).2 := by
  have hexpansions : (asked ++ [Request.next name variant]).countP Request.expands =
      asked.countP Request.expands := countP_of_not_expands rfl
  have hother : ∀ other list, other ≠ name →
      (asked ++ [Request.next name variant]).count (Request.next other list) =
        asked.count (Request.next other list) := by
    intro other list hne
    apply count_append_of_ne
    rintro ⟨⟩
    exact hne rfl
  cases hp : s.provider name with
  | error e =>
    -- There is no provider of that name, so no place is told of the list that was asked.
    rw [perform_next_of_unknown hp]
    refine ⟨h.corpus, h.cap, by rw [hexpansions, h.events], h.names, h.entities, ?_⟩
    intro other q hq
    have hne : other ≠ name := by
      rintro rfl
      rw [hp] at hq
      cases hq
    simp only [hother other _ hne]
    exact h.places other q hq
  | ok p =>
    have hold : s.providers.get? name = some p := provider_eq_ok_iff.mp hp
    rw [perform_next hp]
    refine ⟨h.corpus, h.cap, by rw [hexpansions, h.events], ?_, ?_, ?_⟩
    · rw [← h.names]
      exact Entries.keys_insert_of_get? hold _
    · intro other
      rw [← h.entities other]
      by_cases hsame : other = name
      · subst hsame
        simp only [entityNamed, provider, Entries.get?_insert_self, hold, Except.map,
          Provider.entity_next]
      · simp only [entityNamed, provider, Entries.get?_insert_of_ne (Ne.symm hsame)]
    · intro other q hq
      rw [provider_eq_ok_iff] at hq
      by_cases hsame : other = name
      · subst hsame
        rw [Entries.get?_insert_self] at hq
        obtain rfl := Option.some.inj hq
        simp only [count_append_next]
        exact (h.places other p hp).next variant
      · rw [Entries.get?_insert_of_ne (Ne.symm hsame)] at hq
        simp only [hother other _ hsame]
        exact h.places other q (provider_eq_ok_iff.mpr hq)

theorem After.perform (h : After start asked s) (request : Request) :
    After start (asked ++ [request]) (s.perform request).2 := by
  cases hexpands : request.expands with
  | true => exact h.expand hexpands
  | false =>
    by_cases hnext : ∃ entity variant, request = .next entity variant
    · obtain ⟨entity, variant, rfl⟩ := hnext
      exact h.serve entity variant
    · apply h.stay hexpands
      intro entity variant heq
      exact hnext ⟨entity, variant, heq⟩

end Steps

theorem after_start (corpus : Corpus) (cap : Option Cap) :
    After (start corpus cap) [] (start corpus cap) := by
  refine ⟨rfl, rfl, rfl, rfl, fun _ => rfl, ?_⟩
  intro name p hp
  have hmem := Entries.mem_of_get? (provider_eq_ok_iff.mp hp)
  obtain ⟨e, -, heq⟩ := List.mem_map.mp hmem
  obtain ⟨-, rfl⟩ := Prod.mk.inj heq
  exact Provider.standsAfter_ofEntity e.2

/-! ### What a session replies -/

section Replies

variable {start s : Session} {asked : List Request} {name : Text} {variant : Option Text}

/-- What is said of an entity hangs on the entity, and not on its provider's places. -/
theorem found_map {α : Type} (reply : α → Reply) (f : Entity → α) (s : Session) (name : Text) :
    found reply ((s.entityNamed name).map f) =
      found (fun p => reply (f p.entity)) (s.provider name) := by
  unfold entityNamed
  cases s.provider name with
  | error e => rfl
  | ok p => rfl

theorem perform_values (s : Session) (name : Text) (variant : Option Text) :
    (s.perform (.values name variant)).1 =
      found .names ((s.entityNamed name).bind fun entity => entity.values variant) := by
  rw [perform, entityNamed]
  cases s.provider name with
  | error e => rfl
  | ok p => rfl

theorem perform_values_eq_names {values : List Text}
    (h : (s.perform (.values name variant)).1 = .names values) :
    ∃ p, s.provider name = .ok p ∧ p.entity.values variant = .ok values := by
  rw [perform] at h
  cases hp : s.provider name with
  | error e =>
    rw [hp] at h
    cases h
  | ok p =>
    refine ⟨p, rfl, ?_⟩
    rw [hp] at h
    cases hvalues : p.entity.values variant with
    | error e =>
      simp only [Except.bind, hvalues, found] at h
      cases h
    | ok found =>
      simp only [Except.bind, hvalues, Session.found, Reply.names.injEq] at h
      rw [h]

theorem perform_values_eq_failed {error : RequestError}
    (h : (s.perform (.values name variant)).1 = .failed error) :
    (s.perform (.next name variant)).1 = .failed error := by
  rw [perform] at h
  cases hp : s.provider name with
  | error e =>
    rw [hp] at h
    rw [perform_next_of_unknown hp]
    exact h
  | ok p =>
    rw [hp] at h
    rw [perform_next hp]
    cases hvalues : p.entity.values variant with
    | error e =>
      simp only [Except.bind, hvalues] at h
      rw [Provider.next_of_error hvalues]
      exact h
    | ok values =>
      simp only [Except.bind, hvalues, found] at h
      cases h

/-- Whatever does not see the history is answered as at the start. -/
theorem After.reply (h : After start asked s) {request : Request}
    (hrequest : request.seesHistory = false) :
    (s.perform request).1 = (start.perform request).1 := by
  have hexpanding : ∀ reply, (s.expanding reply).1 = (start.expanding reply).1 := by
    intro reply
    simp only [expanding, h.corpus, h.cap]
  cases request with
  | storedIntents | expandedIntents | texts | rows | table => exact hexpanding _
  | next | events | eventCount => cases hrequest
  | entityNames => simp only [Session.perform, h.names]
  | synonymNames | intents | synonyms | counts => simp only [Session.perform, h.corpus]
  | values name variant => rw [perform_values, perform_values, h.entities]
  | props name =>
    have hprops := found_map .fields Entity.props
    simp only [Session.perform, ← hprops, h.entities]
  | variantNames name =>
    have hnames := found_map .names fun entity => Entries.keys entity.variants
    simp only [Session.perform, ← hnames, h.entities]
  | size name =>
    have hsize := found_map .number fun entity => entity.defaults.length
    simp only [Session.perform, ← hsize, h.entities]

theorem After.reply_next (h : After start asked s) {values : List Text}
    (hvalues : (start.perform (.values name variant)).1 = .names values) (hne : values ≠ []) :
    ∃ v, values[asked.count (.next name variant) % values.length]? = some v ∧
      (s.perform (.next name variant)).1 = .value v := by
  rw [← h.reply rfl] at hvalues
  obtain ⟨p, hp, hlist⟩ := perform_values_eq_names hvalues
  obtain ⟨v, hv, hnext⟩ := Provider.next_of_lastPlace hlist hne
    (h.places name p hp variant values hlist hne)
  refine ⟨v, hv, ?_⟩
  rw [perform_next hp, hnext]
  rfl

theorem After.reply_next_of_nil (h : After start asked s)
    (hvalues : (start.perform (.values name variant)).1 = .names []) :
    (s.perform (.next name variant)).1 = .failed (.lookup .noValues) := by
  rw [← h.reply rfl] at hvalues
  obtain ⟨p, hp, hlist⟩ := perform_values_eq_names hvalues
  rw [perform_next hp, Provider.next_of_nil hlist]
  rfl

theorem After.reply_next_of_failed (h : After start asked s) {error : RequestError}
    (hvalues : (start.perform (.values name variant)).1 = .failed error) :
    (s.perform (.next name variant)).1 = .failed error := by
  rw [← h.reply rfl] at hvalues
  exact perform_values_eq_failed hvalues

end Replies

/-! ### Rows of requests -/

section Rows

variable {start s : Session} {asked : List Request}

theorem performAll_cons (s : Session) (request : Request) (rest : List Request) :
    s.performAll (request :: rest) =
      ((s.perform request).1 :: ((s.perform request).2.performAll rest).1,
        ((s.perform request).2.performAll rest).2) := rfl

theorem After.performAll (h : After start asked s) (requests : List Request) :
    After start (asked ++ requests) (s.performAll requests).2 := by
  induction requests generalizing asked s with
  | nil =>
    rw [List.append_nil]
    exact h
  | cons request rest ih =>
    have hrest := ih (h.perform request)
    rw [List.append_assoc, List.singleton_append] at hrest
    exact hrest

theorem After.replies (h : After start asked s) {requests : List Request} {i : Nat}
    {request : Request} (hi : requests[i]? = some request)
    (hrequest : request.seesHistory = false) :
    (s.performAll requests).1[i]? = some (start.perform request).1 := by
  induction requests generalizing asked s i with
  | nil => cases hi
  | cons first rest ih =>
    rw [performAll_cons]
    cases i with
    | zero =>
      obtain rfl := Option.some.inj hi
      exact congrArg some (h.reply hrequest)
    | succ i => exact ih (h.perform first) hi

section Served

variable {name : Text} {variant : Option Text}

theorem servedFrom_cons_of_ne {request : Request} (hne : request ≠ .next name variant)
    (reply : Reply) (requests : List Request) (replies : List Reply) :
    servedFrom name variant (request :: requests) (reply :: replies) =
      servedFrom name variant requests replies := by
  cases reply with
  | value v => exact if_neg hne
  | names | number | fields | intents | texts | rows | table | counts | events | failed => rfl

theorem servedFrom_cons_value (v : Text) (requests : List Request) (replies : List Reply) :
    servedFrom name variant (.next name variant :: requests) (.value v :: replies) =
      v :: servedFrom name variant requests replies := if_pos rfl

/-- A list with values is served around, one value for each request. -/
theorem After.served (h : After start asked s) {values : List Text}
    (hvalues : (start.perform (.values name variant)).1 = .names values) (hne : values ≠ [])
    (requests : List Request) (j : Nat) :
    (servedFrom name variant requests (s.performAll requests).1)[j]? =
      if j < requests.count (.next name variant) then
        values[(asked.count (.next name variant) + j) % values.length]?
      else none := by
  -- What was asked before is generalised along with the session: each request adds one to both.
  induction requests generalizing asked s j with
  | nil => rfl
  | cons request rest ih =>
    have hrest := ih (h.perform request)
    rw [performAll_cons]
    by_cases hsame : request = .next name variant
    · subst hsame
      obtain ⟨v, hv, hreply⟩ := h.reply_next hvalues hne
      rw [hreply, servedFrom_cons_value, List.count_cons_self]
      cases j with
      | zero =>
        rw [List.getElem?_cons_zero, if_pos (Nat.succ_pos _), Nat.add_zero, hv]
      | succ j =>
        have hplace : asked.count (.next name variant) + 1 + j =
            asked.count (.next name variant) + (j + 1) := by omega
        rw [List.getElem?_cons_succ, hrest, List.count_append, List.count_singleton_self, hplace]
        simp only [Nat.add_lt_add_iff_right]
    · rw [servedFrom_cons_of_ne hsame, hrest, count_append_of_ne hsame,
        List.count_cons_of_ne hsame]

/-- Nothing is served from a list that every request asks in vain. -/
theorem After.served_in_vain (h : After start asked s)
    (hvain : ∀ asked s, After start asked s →
      ∃ error, (s.perform (.next name variant)).1 = .failed error) (requests : List Request) :
    servedFrom name variant requests (s.performAll requests).1 = [] := by
  induction requests generalizing asked s with
  | nil => rfl
  | cons request rest ih =>
    have hrest := ih (h.perform request)
    rw [performAll_cons]
    by_cases hsame : request = .next name variant
    · subst hsame
      obtain ⟨error, hreply⟩ := hvain asked s h
      rw [hreply]
      exact hrest
    · rw [servedFrom_cons_of_ne hsame, hrest]

end Served

theorem countKind_flatten_replicate (n : Nat) (events : List Event) (kind : Text) :
    Event.countKind (List.replicate n events).flatten kind = n * Event.countKind events kind := by
  unfold Event.countKind
  rw [List.countP_flatten, List.map_replicate, List.sum_replicate_nat]

end Rows

/-! ### Steady replies -/

/-- How the replies to a row of requests, and the session after it, hang on the session before. -/
structure Steady (start : Session) (requests : List Request) (replies : List Reply)
    (after : Session) : Prop where
  /-- What does not see the history, an expansion above all, is answered as at the start. -/
  unaffected : ∀ (i : Nat) (request : Request), requests[i]? = some request →
    request.seesHistory = false → replies[i]? = some (start.perform request).1
  /-- The events of one expansion are collected once for each request that expands. -/
  collected : (after.perform .events).1 = .events
    (List.replicate (requests.countP Request.expands)
      (start.corpus.expand start.cap).events).flatten
  counted : ∀ kind, (after.perform (.eventCount kind)).1 = .number
    (requests.countP Request.expands *
      Event.countKind (start.corpus.expand start.cap).events kind)
  /-- Each list is served around on its own, whatever else is asked in between. -/
  served : ∀ name variant values, (start.perform (.values name variant)).1 = .names values →
    ∀ j : Nat, (servedFrom name variant requests replies)[j]? =
      if j < requests.count (.next name variant) then values[j % values.length]? else none
  /-- From a list that is not there nothing is served. -/
  refused : ∀ name variant error, (start.perform (.values name variant)).1 = .failed error →
    servedFrom name variant requests replies = []

theorem steady_performAll (corpus : Corpus) (cap : Option Cap) (requests : List Request) :
    (start corpus cap).Steady requests ((start corpus cap).performAll requests).1
      ((start corpus cap).performAll requests).2 := by
  have hstart := after_start corpus cap
  have hafter := hstart.performAll requests
  refine ⟨fun _ _ => hstart.replies, ?_, ?_, ?_, ?_⟩
  · exact congrArg Reply.events hafter.events
  · intro kind
    rw [← countKind_flatten_replicate]
    exact congrArg (fun events => Reply.number (Event.countKind events kind)) hafter.events
  · intro name variant values hvalues j
    by_cases hnil : values = []
    · subst hnil
      have hvain := hstart.served_in_vain
        (fun asked s h => ⟨_, h.reply_next_of_nil hvalues⟩) requests
      rw [hvain]
      simp
    · rw [hstart.served hvalues hnil, List.count_nil, Nat.zero_add]
  · intro name variant error hvalues
    exact hstart.served_in_vain (fun asked s h => ⟨_, h.reply_next_of_failed hvalues⟩) requests

/-! ### Sessions on a tree -/

/-- An expansion does not see which values the entities list. -/
theorem perform_start_of_expands (tree : Json) (cap : Option Cap) (useSynonyms : Bool)
    {request : Request} (h : request.expands = true) :
    ((start (Corpus.ofJson useSynonyms tree) cap).perform request).1 =
      ((start (Corpus.ofJson (!useSynonyms) tree) cap).perform request).1 := by
  cases request with
  | storedIntents | expandedIntents | texts | rows | table => rfl
  | entityNames | synonymNames | intents | synonyms | values | next | props | variantNames | size
  | counts | events | eventCount => cases h

theorem seesHistory_of_expands {request : Request} (h : request.expands = true) :
    request.seesHistory = false := by
  cases request with
  | storedIntents | expandedIntents | texts | rows | table => rfl
  | entityNames | synonymNames | intents | synonyms | values | next | props | variantNames | size
  | counts | events | eventCount => cases h

/-- **Replies are steady.**  Whatever a session on a tree is asked, in whatever order, its
expansions come out as at its start, it collects the events of one expansion for each that it makes,
and it serves every list of every entity around on its own.  A session on the same tree whose
entities list synonyms too, or do not, expands to the same and collects the same. -/
theorem replies_steady (useSynonyms : Bool) (maxVariants : Option Int) (tree : Json)
    (session : Session) (hopen : open? useSynonyms maxVariants tree = some session)
    (requests : List Request) :
    session.Steady requests (session.performAll requests).1 (session.performAll requests).2 ∧
      ∃ other, open? (!useSynonyms) maxVariants tree = some other ∧
        (∀ (i : Nat) (request : Request), requests[i]? = some request → request.expands = true →
          (session.performAll requests).1[i]? = (other.performAll requests).1[i]?) ∧
        (session.performAll requests).2.events = (other.performAll requests).2.events := by
  obtain ⟨cap, hcap, rfl⟩ := open?_eq_some_iff.mp hopen
  refine ⟨steady_performAll _ cap requests, _, open?_eq_some_iff.mpr ⟨cap, hcap, rfl⟩, ?_, ?_⟩
  · intro i request hi hrequest
    have hsteady := seesHistory_of_expands hrequest
    rw [(after_start _ cap).replies hi hsteady, (after_start _ cap).replies hi hsteady,
      perform_start_of_expands tree cap useSynonyms hrequest]
  · have hevents := ((after_start (Corpus.ofJson useSynonyms tree) cap).performAll requests).events
    have hevents' :=
      ((after_start (Corpus.ofJson (!useSynonyms) tree) cap).performAll requests).events
    rw [hevents, hevents']
    rfl

/-- Requests for values of two lists and of an unknown one, with two expansions in between that a
cap cuts. -/
theorem replies_steady_in_between :
    let records (values : List Text) : Json :=
      .arr (values.map fun v => .obj [("value", .str v)])
    let tree : Json := .obj [
      ("intents", .obj [("go", .obj [("data", .arr [
        .arr [.obj [("type", .str "synonym"), ("value", .str "x")]]])])]),
      ("synonyms", .obj [("x", .obj [("data", records ["A", "B"])])]),
      ("entities", .obj [("e", .obj [("data", records ["x", "y"]),
        ("variants", .obj [("v", records ["z"])])])])]
    let session := start (Corpus.ofJson true tree) (some ⟨1, by decide⟩)
    let requests : List Request := [.next "e" none, .rows, .next "e" (some "v"), .next "e" none,
      .next "e" (some "w"), .storedIntents, .next "e" none, .next "e" none, .next "e" none]
    let replies := (session.performAll requests).1
    let values : List Text := ["x", "A", "B", "y"]
    open? true (some 1) tree = some session ∧
      (session.perform (.values "e" none)).1 = .names values ∧
      (servedFrom "e" none requests replies)[4]? = some ("x" : Text) ∧
      servedFrom "e" (some "w") requests replies = [] ∧
      replies[1]? = some (session.perform .rows).1 ∧
      ((session.performAll requests).2.perform (.eventCount "truncated")).1 = .number 2 ∧
      session.Steady requests replies (session.performAll requests).2 := by
  intro records tree session requests replies values
  have hopen : open? true (some 1) tree = some session := rfl
  have hsteady := (replies_steady true (some 1) tree session hopen requests).1
  have hvalues : (session.perform (.values "e" none)).1 = .names values := rfl
  have hasked : requests.count (.next "e" none) = 5 := by decide
  have hlength : values.length = 4 := rfl
  have hserved := hsteady.served "e" none values hvalues 4
  rw [hasked, if_pos (by decide), hlength] at hserved
  have hone : Event.countKind (session.corpus.expand session.cap).events "truncated" = 1 := by
    decide +kernel
  have hcounted := hsteady.counted "truncated"
  rw [hone] at hcounted
  exact ⟨hopen, hvalues, hserved, hsteady.refused "e" (some "w") _ rfl,
    hsteady.unaffected 1 .rows rfl rfl, hcounted, hsteady⟩

end Session

end Phrasing
