/-
Dotted texts and the keys they name.

For plain keys (not empty, without a point) the text and the keys carry the same information: the keys come back out of
the text (`components_ofKeys`), joining appends (`join_ofKeys`), and a text lies below another exactly when its keys
extend the other's (`below?_ofKeys`). `isBelow` itself needs no plain keys to be a strict order in which the texts above
a given one form a chain (`isBelow_trans`, `isBelow_irrefl`, `isBelow_chain`).
-/
import ContactSync.Dotted.Basic
import Mathlib.Data.List.Basic
import Mathlib.Tactic.SplitIfs

namespace ContactSync

namespace Dotted

/-- keys that a dotted text can name -/
def PlainKeys (keys : List String) : Prop := ∀ k ∈ keys, PlainKey k

instance : DecidablePred PlainKey := fun k => inferInstanceAs (Decidable (k ≠ "" ∧ '.' ∉ k.toList))

instance (keys : List String) : Decidable (PlainKeys keys) := inferInstanceAs (Decidable (∀ k ∈ keys, PlainKey k))

/-! ## Pieces and components -/

theorem pieces_ne_nil (text : List Char) : pieces text ≠ [] := by
  cases text with
  | nil => simp [pieces]
  | cons c rest =>
    unfold pieces
    split_ifs
    · simp
    · split <;> simp

theorem pieces_append (a b : List Char) : pieces (a ++ '.' :: b) = pieces a ++ pieces b := by
  induction a with
  | nil => simp [pieces]
  | cons c a ih =>
    rw [List.cons_append, pieces, pieces, ih]
    split_ifs
    · rfl
    · cases hp : pieces a with
      | nil => exact absurd hp (pieces_ne_nil a)
      | cons piece others => rfl

theorem pieces_eq_self {text : List Char} (h : '.' ∉ text) : pieces text = [text] := by
  induction text with
  | nil => rfl
  | cons c rest ih =>
    rw [List.mem_cons, not_or] at h
    unfold pieces
    rw [if_neg (Ne.symm h.1), ih h.2]

theorem components_append (a b : String) : components (a ++ "." ++ b) = components a ++ components b := by
  have h : (a ++ "." ++ b).toList = a.toList ++ '.' :: b.toList := by simp
  rw [components, h, pieces_append]
  simp [components]

theorem dot_notMem_of_mem_pieces {text piece : List Char} (h : piece ∈ pieces text) : '.' ∉ piece := by
  induction text generalizing piece with
  | nil => simp only [pieces, List.mem_singleton] at h; simp [h]
  | cons c rest ih =>
    unfold pieces at h
    split_ifs at h with hc
    · rcases List.mem_cons.1 h with rfl | h
      · simp
      · exact ih h
    · cases hp : pieces rest with
      | nil => exact absurd hp (pieces_ne_nil rest)
      | cons first others =>
        rw [hp] at h ih
        rcases List.mem_cons.1 h with rfl | h
        · rw [List.mem_cons, not_or]
          exact ⟨Ne.symm hc, ih List.mem_cons_self⟩
        · exact ih (List.mem_cons_of_mem _ h)

theorem plainKeys_components (text : String) : PlainKeys (components text) := by
  intro k hk
  simp only [components, List.mem_map, List.mem_filter] at hk
  obtain ⟨piece, ⟨hp, hne⟩, rfl⟩ := hk
  constructor
  · intro he
    have := congrArg String.toList he
    simp_all
  · rw [String.toList_ofList]; exact dot_notMem_of_mem_pieces hp

theorem components_key {k : String} (h : PlainKey k) : components k = [k] := by
  have hk : k.toList ≠ [] := fun hk => h.1 (String.toList_inj.1 hk)
  simp [components, pieces_eq_self h.2, hk]

/-! ## Keys to text and back -/

@[simp] theorem ofKeys_nil : ofKeys [] = "" := by simp [ofKeys]

@[simp] theorem ofKeys_singleton (k : String) : ofKeys [k] = k := by simp [ofKeys]

theorem ofKeys_append {ks js : List String} (hk : ks ≠ []) (hj : js ≠ []) :
    ofKeys (ks ++ js) = ofKeys ks ++ "." ++ ofKeys js :=
  String.intercalate_append_of_ne_nil hk hj

/-- the components of keys with points between them are those of each, whatever the keys -/
theorem components_ofKeys_eq (ks : List String) : components (ofKeys ks) = ks.flatMap components := by
  induction ks with
  | nil => rw [ofKeys_nil]; rfl
  | cons k ks ih =>
    by_cases hn : ks = []
    · rw [hn, ofKeys_singleton, List.flatMap_singleton]
    · have happ := ofKeys_append (List.cons_ne_nil k []) hn
      rw [List.singleton_append] at happ
      rw [happ, components_append, ih, ofKeys_singleton, List.flatMap_cons]

/-- **Keys are their own components exactly when they are plain.** -/
theorem flatMap_components_eq_self_iff {ks : List String} : ks.flatMap components = ks ↔ PlainKeys ks := by
  constructor
  · intro h k hk
    rw [← h] at hk
    obtain ⟨j, -, hkj⟩ := List.mem_flatMap.1 hk
    exact plainKeys_components j k hkj
  · intro h
    induction ks with
    | nil => rfl
    | cons k ks ih =>
      rw [List.flatMap_cons, components_key (h k List.mem_cons_self), ih fun j hj => h j (List.mem_cons_of_mem _ hj)]
      rfl

/-- **The keys come back out of the text.** -/
theorem components_ofKeys {ks : List String} (h : PlainKeys ks) : components (ofKeys ks) = ks := by
  rw [components_ofKeys_eq, flatMap_components_eq_self_iff.2 h]

theorem ofKeys_inj {ks js : List String} (hk : PlainKeys ks) (hj : PlainKeys js) (h : ofKeys ks = ofKeys js) :
    ks = js := by
  rw [← components_ofKeys hk, h, components_ofKeys hj]

theorem ofKeys_ne_empty {ks : List String} (h : PlainKeys ks) (hn : ks ≠ []) : ofKeys ks ≠ "" := by
  intro he
  refine hn (@ofKeys_inj ks [] h (fun k hk => by simp at hk) ?_)
  rw [he, ofKeys_nil]

theorem join_ofKeys {ks js : List String} (h : PlainKeys ks) (hj : js ≠ []) :
    join (ofKeys ks) (ofKeys js) = ofKeys (ks ++ js) := by
  by_cases hn : ks = []
  · subst hn; simp [join]
  · unfold join
    rw [if_neg (ofKeys_ne_empty h hn), ofKeys_append hn hj]

/-- keys joined below a text that is not empty, whatever they are -/
theorem foldl_join_of_ne_empty {path : String} (hp : path ≠ "") (ks : List String) :
    ks.foldl join path = ofKeys (path :: ks) := by
  induction ks generalizing path with
  | nil => rw [List.foldl_nil, ofKeys_singleton]
  | cons k ks ih =>
    have hne : path ++ "." ++ k ≠ "" := by
      intro he
      have := congrArg String.toList he
      simp at this
    calc
      _ = ks.foldl join (path ++ "." ++ k) := by rw [List.foldl_cons, join, if_neg hp]
      _ = ofKeys ((path ++ "." ++ k) :: ks) := ih hne
      _ = ofKeys (path :: k :: ks) := by
        rw [ofKeys, ofKeys, String.intercalate_cons_append, String.intercalate_cons_cons]

/-- keys joined one after another; empty ones at the front leave no trace -/
theorem foldl_join (ks : List String) : ks.foldl join "" = ofKeys (ks.dropWhile fun k => k.isEmpty) := by
  induction ks with
  | nil => exact ofKeys_nil.symm
  | cons k ks ih =>
    by_cases hk : k = ""
    · subst hk
      rw [List.dropWhile_cons_of_pos (by rfl), ← ih]
      rfl
    · rw [List.dropWhile_cons_of_neg (by simpa using hk)]
      exact foldl_join_of_ne_empty hk ks

theorem PlainKeys.dropWhile_isEmpty {ks : List String} (h : PlainKeys ks) : (ks.dropWhile fun k => k.isEmpty) = ks := by
  cases ks with
  | nil => rfl
  | cons k ks =>
    have hk := (h k List.mem_cons_self).1
    rw [List.dropWhile_cons_of_neg (by simpa using hk)]

theorem foldl_join_ofKeys {ks : List String} (h : PlainKeys ks) : ks.foldl join "" = ofKeys ks := by
  rw [foldl_join, h.dropWhile_isEmpty]

/-! ## Below -/

theorem after?_eq_some_iff {start text rest : List Char} : after? start text = some rest ↔ text = start ++ rest := by
  induction start generalizing text with
  | nil => simp [after?]
  | cons c start ih =>
    cases text with
    | nil => simp [after?]
    | cons d text =>
      unfold after?
      split_ifs with hc
      · rw [ih, hc, List.cons_append, List.cons.injEq]; simp
      · simp [Ne.symm hc]

theorem below?_eq_some_iff {path text rest : String} : below? path text = some rest ↔ text = path ++ "." ++ rest := by
  simp only [below?, Option.map_eq_some_iff, after?_eq_some_iff]
  constructor
  · rintro ⟨r, hr, rfl⟩
    apply String.toList_inj.1
    simp [hr]
  · rintro rfl
    exact ⟨rest.toList, by simp, by simp⟩

theorem isBelow_iff {path text : String} : isBelow path text = true ↔ ∃ rest, text = path ++ "." ++ rest := by
  unfold isBelow
  rw [Option.isSome_iff_exists]
  exact exists_congr fun _ => below?_eq_some_iff

theorem isBelow_eq_false_iff {path text : String} : isBelow path text = false ↔ ∀ rest, text ≠ path ++ "." ++ rest := by
  rw [← Bool.not_eq_true, isBelow_iff, not_exists]

/-- below is a start of the text, up to a point -/
theorem isBelow_iff_prefix {path text : String} : isBelow path text = true ↔ (path ++ ".").toList <+: text.toList := by
  rw [isBelow_iff]
  constructor
  · rintro ⟨rest, rfl⟩
    exact ⟨rest.toList, by simp⟩
  · rintro ⟨rest, hrest⟩
    refine ⟨String.ofList rest, String.toList_inj.1 ?_⟩
    rw [← hrest]
    simp

theorem isBelow_of_below? {path text rest : String} (h : below? path text = some rest) : isBelow path text = true := by
  rw [isBelow, h]
  rfl

theorem isBelow_of_below?_eq_none {path text : String} (h : below? path text = none) : isBelow path text = false := by
  rw [isBelow, h]
  rfl

theorem isBelow_trans {a b c : String} (h1 : isBelow a b = true) (h2 : isBelow b c = true) : isBelow a c = true := by
  obtain ⟨r, rfl⟩ := isBelow_iff.1 h1
  obtain ⟨s, rfl⟩ := isBelow_iff.1 h2
  exact isBelow_iff.2 ⟨r ++ "." ++ s, by simp [String.append_assoc]⟩

theorem length_lt_of_isBelow {a b : String} (h : isBelow a b = true) : a.toList.length < b.toList.length := by
  obtain ⟨r, rfl⟩ := isBelow_iff.1 h
  simp only [String.toList_append, List.length_append]
  have : ".".toList.length = 1 := rfl
  omega

theorem isBelow_irrefl (a : String) : isBelow a a = false := by
  by_contra h
  exact absurd (length_lt_of_isBelow (Bool.not_eq_false _ ▸ h)) (Nat.lt_irrefl _)

theorem isBelow_asymm {a b : String} (h : isBelow a b = true) : isBelow b a = false := by
  by_contra hba
  have hloop := isBelow_trans h (Bool.not_eq_false _ ▸ hba)
  rw [isBelow_irrefl] at hloop
  cases hloop

/-- of two texts above the same one, one lies above the other -/
theorem isBelow_chain {a b c : String} (h1 : isBelow a c = true) (h2 : isBelow b c = true) :
    a = b ∨ isBelow a b = true ∨ isBelow b a = true := by
  obtain ⟨r, hr⟩ := isBelow_iff.1 h1
  obtain ⟨s, hs⟩ := isBelow_iff.1 h2
  have he : a.toList ++ '.' :: r.toList = b.toList ++ '.' :: s.toList := by
    have := congrArg String.toList (hr.symm.trans hs)
    simpa using this
  -- the shorter of the two ends where the longer one has a point or ends too
  rcases List.append_eq_append_iff.1 he with ⟨m, hb, hm⟩ | ⟨m, ha, hm⟩
  · cases m with
    | nil => left; exact (String.toList_inj.1 (by simpa using hb)).symm
    | cons c m =>
      right; left
      rw [List.cons_append, List.cons.injEq] at hm
      refine isBelow_iff.2 ⟨String.ofList m, String.toList_inj.1 ?_⟩
      rw [hb, ← hm.1]; simp
  · cases m with
    | nil => left; exact String.toList_inj.1 (by simpa using ha)
    | cons c m =>
      right; right
      rw [List.cons_append, List.cons.injEq] at hm
      refine isBelow_iff.2 ⟨String.ofList m, String.toList_inj.1 ?_⟩
      rw [ha, ← hm.1]; simp

/-- **Below is a longer row of keys.** What is left of the text names the keys that are left. -/
theorem below?_ofKeys {ks js : List String} (hk : PlainKeys ks) (hj : PlainKeys js) (hn : ks ≠ []) {rest : String} :
    below? (ofKeys ks) (ofKeys js) = some rest ↔ ∃ tail, tail ≠ [] ∧ js = ks ++ tail ∧ rest = ofKeys tail := by
  rw [below?_eq_some_iff]
  constructor
  · intro h
    have hjs : js = ks ++ components rest := by
      rw [← components_ofKeys hj, h, components_append, components_ofKeys hk]
    have htail : components rest ≠ [] := by
      intro ht
      rw [ht, List.append_nil] at hjs
      subst hjs
      exact absurd (isBelow_iff.2 ⟨rest, h⟩) (by rw [isBelow_irrefl]; simp)
    refine ⟨components rest, htail, hjs, ?_⟩
    rw [hjs, ofKeys_append hn htail] at h
    have := congrArg String.toList h
    simp only [String.toList_append, List.append_cancel_left_eq] at this
    exact (String.toList_inj.1 this).symm
  · rintro ⟨tail, ht, rfl, rfl⟩
    exact ofKeys_append hn ht

theorem isBelow_ofKeys {ks js : List String} (hk : PlainKeys ks) (hj : PlainKeys js) (hn : ks ≠ []) :
    isBelow (ofKeys ks) (ofKeys js) = true ↔ ks <+: js ∧ ks ≠ js := by
  unfold isBelow
  rw [Option.isSome_iff_exists]
  simp only [below?_ofKeys hk hj hn]
  constructor
  · rintro ⟨-, tail, ht, rfl, -⟩
    exact ⟨List.prefix_append _ _, fun h => ht (by simpa using h)⟩
  · rintro ⟨⟨tail, rfl⟩, hne⟩
    exact ⟨_, tail, fun ht => hne (by simp [ht]), rfl, rfl⟩

/-! ## Texts without empty pieces -/

/-- a text that is its components with points between them, at least one -/
def Plain (path : String) : Prop := components path ≠ [] ∧ ofKeys (components path) = path

instance (path : String) : Decidable (Plain path) :=
  inferInstanceAs (Decidable (components path ≠ [] ∧ ofKeys (components path) = path))

theorem plain_ofKeys {ks : List String} (h : PlainKeys ks) (hn : ks ≠ []) : Plain (ofKeys ks) := by
  rw [Plain, components_ofKeys h]; exact ⟨hn, rfl⟩

theorem components_inj {a b : String} (ha : Plain a) (hb : Plain b) (h : components a = components b) : a = b := by
  rw [← ha.2, h, hb.2]

theorem isBelow_iff_components {a b : String} (ha : Plain a) (hb : Plain b) :
    isBelow a b = true ↔ components a <+: components b ∧ components a ≠ components b := by
  have := isBelow_ofKeys (plainKeys_components a) (plainKeys_components b) ha.1
  rwa [ha.2, hb.2] at this

/-- what is left of a path below another is plain, and names the keys that are left -/
theorem components_below? {a b rest : String} (ha : Plain a) (hb : Plain b) (h : below? a b = some rest) :
    components b = components a ++ components rest ∧ components rest ≠ [] := by
  have := @below?_ofKeys _ _ (plainKeys_components a) (plainKeys_components b) ha.1 rest
  rw [ha.2, hb.2] at this
  obtain ⟨tail, hn, htail, rfl⟩ := this.1 h
  have hp : PlainKeys tail := fun k hk => plainKeys_components b k (by rw [htail]; exact List.mem_append_right _ hk)
  rw [components_ofKeys hp]
  exact ⟨htail, hn⟩

end Dotted

end ContactSync
