/-
  The filters of the journal view: for live messages and for loaded ones.

  A live message is put on top of the list if `matchesFilters` says so, while
  the messages of a load are those that `Client.Query` finds for the parameters
  that `loadMessages` sends.  The view looks for the search text in four columns
  and the query in two; the view takes the text letter by letter and the query
  as a part of a pattern; and the handler takes the type and the group apart at
  their commas and leaves them out if they are empty
  (`not_filtersAgree_searchCode`).

  So the two agree on all messages exactly without a search text, or where the
  text is made of `%` only and found in the group that is set, as long as type
  and group each stand for one value (`filtersAgree_iff`).

  The two cases of a letter are those of ASCII on both sides.  `LIKE` is taken
  with and without the backslash as an escape, and the times of the parameters
  exactly, which the driver of the database writes in whole seconds.
-/
import UnisetPanel.Browser.ListFilters
import UnisetPanel.Journal.Client
import UnisetPanel.LikePattern

namespace UnisetPanel

/-! ### The request -/

/-- `journal.QueryParams`; the times are in nanoseconds. -/
structure JournalQueryParams where
  fromTime : Option ℤ
  toTime : Option ℤ
  mTypes : List String
  mGroups : List String
  search : String
  limit : ℕ
  offset : ℕ
  deriving DecidableEq, Repr

/-- `strings.Split` at the commas. -/
def splitCommas (s : String) : List String := (s.toList.splitOn ',').map String.ofList

/-- The values of a parameter; none where it is not set or empty. -/
def paramValues (param : Option String) : List String :=
  if param.getD "" ≠ "" then splitCommas (param.getD "") else []

/-- The parameters that `GetJournalMessages` reads. -/
def JournalRequest.params (r : JournalRequest) : JournalQueryParams where
  fromTime := r.fromTime.map (· * 1000000)
  toTime := r.toTime.map (· * 1000000)
  mTypes := paramValues r.mtype
  mGroups := paramValues r.mgroup
  search := r.search.getD ""
  limit := min (if r.limit = 0 then 100 else r.limit) 1000
  offset := r.offset

/-! ### The query -/

/-- `ILIKE`. -/
def ilike (escapes : Bool) (text pattern : String) : Bool :=
  LikePattern.accepts Char.toLower (LikePattern.parse escapes pattern.toList) text.toList

namespace JournalQueryParams

variable (p : JournalQueryParams) (escapes : Bool)

/-- `searchPattern`. -/
def searchPattern : String := "%" ++ p.search ++ "%"

/-- `conditions`. -/
def conditions : List (JournalMessage → Bool) :=
  (p.fromTime.map fun t (msg : JournalMessage) => decide (t ≤ msg.timestamp)).toList ++
  (p.toTime.map fun t (msg : JournalMessage) => decide (msg.timestamp ≤ t)).toList ++
  (if 0 < p.mTypes.length then [fun msg : JournalMessage => decide (msg.mtype ∈ p.mTypes)]
    else []) ++
  (if 0 < p.mGroups.length then [fun msg : JournalMessage => decide (msg.mgroup ∈ p.mGroups)]
    else []) ++
  if p.search ≠ "" then
    [fun msg : JournalMessage =>
      ilike escapes msg.message p.searchPattern || ilike escapes msg.name p.searchPattern]
  else []

/-- `whereClause`: the conditions that there are, joined by `AND`. -/
def selects (msg : JournalMessage) : Bool := (p.conditions escapes).all fun c => c msg

end JournalQueryParams

/-! ### The view -/

/-- `includes`, both texts in lower case. -/
def includesLower (text part : String) : Bool :=
  part.toList.map Char.toLower <:+: text.toList.map Char.toLower

namespace JournalFilters

variable (f : JournalFilters)

/-- `matchesFilters`. -/
def matchesFilters (msg : JournalMessage) : Bool :=
  if f.mtype ≠ "all" && msg.mtype ≠ f.mtype then false
  else if f.mgroup ≠ "all" && msg.mgroup ≠ f.mgroup then false
  else if f.search ≠ "" then
    includesLower msg.name f.search || includesLower msg.message f.search ||
      includesLower msg.mcode f.search || includesLower msg.mgroup f.search
  else true

/-- The filters without their time range. -/
def anyTime : JournalFilters := { f with fromTime := none, toTime := none }

/-- **The two agree on a message**: the view shows it live exactly if a load finds it, whatever its
time. -/
def AgreesOn (escapes : Bool) (msg : JournalMessage) : Prop :=
  ∀ offset, f.matchesFilters msg = (f.anyTime.request offset).params.selects escapes msg

end JournalFilters

/-- A value that a message has if the view and the query say so: every value, or the one that is
set. -/
def OneValue (value : String) : Prop := value = "all" ∨ value ≠ "" ∧ ',' ∉ value.toList

/-! ### A text that only the code has -/

/-- A search for a code. -/
def searchCode : JournalFilters := ⟨"all", "all", "E42", none, none⟩

/-- A message with this code. -/
def codeMessage : JournalMessage := ⟨0, 0, "Pump1_S", "Pump failed", "Alarm", "Pumps", "E42"⟩

/-- **It fails** with and without the escape: the view shows the message live, and a load does not
find it. -/
theorem not_filtersAgree_searchCode :
    (¬ ∀ f msg, JournalFilters.AgreesOn f false msg) ∧
      ¬ ∀ f msg, JournalFilters.AgreesOn f true msg := by
  constructor
  · intro h
    exact absurd (h searchCode codeMessage 0) (by decide)
  · intro h
    exact absurd (h searchCode codeMessage 0) (by decide)

/-! ### One parameter -/

/-- The view lets a message with this value pass. -/
def Admits (value x : String) : Prop := value = "all" ∨ x = value

/-- The query does. -/
def Selected (value x : String) : Prop :=
  value = "all" ∨ paramValues (some value) = [] ∨ x ∈ paramValues (some value)

/-- The tests of `matchesFilters`. -/
theorem refuses_iff (value x : String) :
    (decide (value ≠ "all") && decide (x ≠ value)) = true ↔ ¬ Admits value x := by
  simp [Admits]

theorem paramValues_of_ne {value : String} (h : value ≠ "") :
    paramValues (some value) = splitCommas value := by
  rw [paramValues, Option.getD_some, if_pos h]

theorem splitCommas_ne_nil (s : String) : splitCommas s ≠ [] := by
  unfold splitCommas
  rw [Ne, List.map_eq_nil_iff]
  exact List.splitOn_ne_nil ',' s.toList

theorem splitCommas_of_notMem {s : String} (h : ',' ∉ s.toList) : splitCommas s = [s] := by
  rw [splitCommas, List.splitOn_eq_singleton h, List.map_singleton, String.ofList_toList]

/-- The parts of a text have no mark in them. -/
theorem notMem_of_mem_splitOn {α : Type*} [DecidableEq α] (a : α) (xs : List α) :
    ∀ part ∈ xs.splitOn a, a ∉ part := by
  induction xs with
  | nil => simp
  | cons x xs ih =>
    rw [List.splitOn_cons_eq_if_modifyHead]
    split_ifs with hx
    · simpa using ih
    · obtain ⟨part, parts, hparts⟩ := List.exists_cons_of_ne_nil (List.splitOn_ne_nil a xs)
      rw [hparts] at ih ⊢
      obtain ⟨hpart, hrest⟩ := List.forall_mem_cons.mp ih
      refine List.forall_mem_cons.mpr ⟨?_, hrest⟩
      rw [List.mem_cons, not_or]
      exact ⟨fun h => hx (by rw [h]; exact beq_self_eq_true x), hpart⟩

theorem self_notMem_splitCommas {s : String} (h : ',' ∈ s.toList) : s ∉ splitCommas s := by
  intro hmem
  obtain ⟨part, hpart, rfl⟩ := List.mem_map.mp hmem
  rw [String.toList_ofList] at h hpart
  exact notMem_of_mem_splitOn ',' part part hpart h

/-- **One value**: view and query let the same messages pass. -/
theorem admits_iff_selected {value : String} (h : OneValue value) (x : String) :
    Admits value x ↔ Selected value x := by
  rcases h with hall | ⟨hne, hcomma⟩
  · exact iff_of_true (Or.inl hall) (Or.inl hall)
  · rw [Selected, paramValues_of_ne hne, splitCommas_of_notMem hcomma, Admits, List.mem_singleton]
    simp

/-- Else there is a value that only one of them lets pass. -/
theorem exists_of_not_oneValue {value : String} (h : ¬ OneValue value) :
    ∃ x, ¬ (Admits value x ↔ Selected value x) := by
  obtain ⟨hall, hvalue⟩ := not_or.mp h
  rcases eq_or_ne value "" with rfl | hne
  · refine ⟨"x", fun hiff => ?_⟩
    have hadmits : Admits "" "x" := hiff.mpr (Or.inr (Or.inl rfl))
    exact absurd hadmits (by unfold Admits; decide)
  · have hcomma : ',' ∈ value.toList := by
      by_contra hnot
      exact hvalue ⟨hne, hnot⟩
    refine ⟨value, fun hiff => ?_⟩
    have hselected : Selected value value := hiff.mp (Or.inr rfl)
    rw [Selected, paramValues_of_ne hne] at hselected
    rcases hselected with h | h | h
    · exact hall h
    · exact splitCommas_ne_nil value h
    · exact self_notMem_splitCommas hcomma h

theorem exists_admits (value : String) : ∃ x, Admits value x := ⟨value, Or.inr rfl⟩

theorem exists_selected (value : String) : ∃ x, Selected value x := by
  rcases eq_or_ne (paramValues (some value)) [] with h | h
  · exact ⟨"", Or.inr (Or.inl h)⟩
  · obtain ⟨x, hx⟩ := List.exists_mem_of_ne_nil _ h
    exact ⟨x, Or.inr (Or.inr hx)⟩

/-! ### The search text -/

section

variable (p : JournalQueryParams) (escapes : Bool)

/-- The letters of a search, between two `%`. -/
theorem ilike_searchPattern_iff (text : String) : ilike escapes text p.searchPattern = true ↔
    text.toList ∈ LikePattern.language Char.toLower
      (LikePattern.parse escapes ('%' :: (p.search.toList ++ ['%']))) := by
  have hpattern : p.searchPattern.toList = '%' :: (p.search.toList ++ ['%']) := by
    simp [JournalQueryParams.searchPattern]
  rw [ilike, LikePattern.accepts_iff_mem_language, hpattern]

theorem forall_searchPattern_iff : (∀ c ∈ '%' :: (p.search.toList ++ ['%']), c = '%') ↔
    ∀ c ∈ p.search.toList, c = '%' := by
  simp [List.mem_append, or_imp]

/-- **The empty text** is found by `%` only. -/
theorem ilike_empty_iff :
    ilike escapes "" p.searchPattern = true ↔ ∀ c ∈ p.search.toList, c = '%' := by
  rw [ilike_searchPattern_iff, String.toList_empty, LikePattern.nil_mem_language_iff,
    LikePattern.forall_parse_many_iff, forall_searchPattern_iff]

/-- And then so is every text. -/
theorem ilike_of_forall (h : ∀ c ∈ p.search.toList, c = '%') (text : String) :
    ilike escapes text p.searchPattern = true := by
  have hmany := (LikePattern.forall_parse_many_iff escapes _).mpr
    ((forall_searchPattern_iff p).mpr h)
  have hne : LikePattern.parse escapes ('%' :: (p.search.toList ++ ['%'])) ≠ [] := by
    obtain ⟨d, rest, hd⟩ : ∃ d rest, p.search.toList ++ ['%'] = d :: rest :=
      List.exists_cons_of_ne_nil (by simp)
    rw [hd, LikePattern.parse, if_neg (by simp)]
    exact List.cons_ne_nil _ _
  rw [ilike_searchPattern_iff]
  exact LikePattern.mem_language_of_forall_many hmany hne _

/-- Some text is found by every search. -/
theorem exists_ilike : ∃ text, ilike escapes text p.searchPattern = true := by
  obtain ⟨cs, hcs⟩ : ∃ cs, cs ∈ LikePattern.language Char.toLower
      (LikePattern.parse escapes ('%' :: (p.search.toList ++ ['%']))) :=
    LikePattern.exists_mem_language _
  refine ⟨String.ofList cs, ?_⟩
  rwa [ilike_searchPattern_iff, String.toList_ofList]

/-- **A search without special letters** finds the texts that it is a part of. -/
theorem ilike_eq_includesLower (h : ∀ c ∈ p.search.toList, LikePattern.isSpecial c = false)
    (text : String) : ilike escapes text p.searchPattern = includesLower text p.search := by
  rw [Bool.eq_iff_iff, ilike_searchPattern_iff, LikePattern.parse_search escapes h,
    LikePattern.mem_language_search_iff, includesLower, decide_eq_true_iff]

/-- The conditions of a query without a time range. -/
theorem JournalQueryParams.selects_iff (hfrom : p.fromTime = none) (hto : p.toTime = none)
    (msg : JournalMessage) : p.selects escapes msg = true ↔
      (p.mTypes ≠ [] → msg.mtype ∈ p.mTypes) ∧ (p.mGroups ≠ [] → msg.mgroup ∈ p.mGroups) ∧
      (p.search ≠ "" → ilike escapes msg.message p.searchPattern = true ∨
        ilike escapes msg.name p.searchPattern = true) := by
  have hif : ∀ (b : Prop) [Decidable b] (g : JournalMessage → Bool),
      (if b then [g] else []).all (fun c => c msg) = true ↔ (b → g msg = true) := by
    intro b _ g
    by_cases hb : b
    · simp [hb]
    · simp [hb]
  have hnone : ∀ g : ℤ → JournalMessage → Bool,
      ((none : Option ℤ).map g).toList.all (fun c => c msg) = true := fun _ => rfl
  rw [selects, conditions, hfrom, hto]
  simp only [List.all_append, Bool.and_eq_true, hnone, hif, true_and, decide_eq_true_iff,
    Bool.or_eq_true, List.length_pos_iff, and_assoc]

end

theorem includesLower_self (s : String) : includesLower s s = true :=
  decide_eq_true (List.infix_refl _)

theorem includesLower_empty {part : String} (h : part ≠ "") : includesLower "" part = false := by
  simpa [includesLower] using h

/-! ### One set of filters -/

namespace JournalFilters

variable (f : JournalFilters) (escapes : Bool)

/-- The columns that the view looks in. -/
theorem matchesFilters_iff (msg : JournalMessage) : f.matchesFilters msg = true ↔
    Admits f.mtype msg.mtype ∧ Admits f.mgroup msg.mgroup ∧
      (f.search ≠ "" → includesLower msg.name f.search = true ∨
        includesLower msg.message f.search = true ∨ includesLower msg.mcode f.search = true ∨
        includesLower msg.mgroup f.search = true) := by
  unfold matchesFilters
  by_cases hmtype : Admits f.mtype msg.mtype
  · rw [if_neg (fun h => (refuses_iff _ _).mp h hmtype)]
    by_cases hmgroup : Admits f.mgroup msg.mgroup
    · rw [if_neg (fun h => (refuses_iff _ _).mp h hmgroup)]
      by_cases hsearch : f.search = ""
      · simp [hmtype, hmgroup, hsearch]
      · simp [hmtype, hmgroup, hsearch, or_assoc]
    · rw [if_pos ((refuses_iff _ _).mpr hmgroup)]
      simp [hmgroup]
  · rw [if_pos ((refuses_iff _ _).mpr hmtype)]
    simp [hmtype]

/-- The parameters of a request with these filters. -/
theorem params_request (offset : ℕ) :
    (f.request offset).params.mTypes =
        paramValues (if f.mtype ≠ "all" then some f.mtype else none) ∧
      (f.request offset).params.mGroups =
        paramValues (if f.mgroup ≠ "all" then some f.mgroup else none) ∧
      (f.request offset).params.search = f.search := by
  refine ⟨rfl, rfl, ?_⟩
  by_cases h : f.search = ""
  · simp [JournalRequest.params, request, h]
  · simp [JournalRequest.params, request, h]

/-- The columns that the query looks in. -/
theorem selects_iff (offset : ℕ) (msg : JournalMessage) :
    (f.anyTime.request offset).params.selects escapes msg = true ↔
      Selected f.mtype msg.mtype ∧ Selected f.mgroup msg.mgroup ∧
      (f.search ≠ "" →
        ilike escapes msg.message (f.anyTime.request offset).params.searchPattern = true ∨
        ilike escapes msg.name (f.anyTime.request offset).params.searchPattern = true) := by
  have hparam : ∀ value x : String, Selected value x ↔
      (paramValues (if value ≠ "all" then some value else none) ≠ [] →
        x ∈ paramValues (if value ≠ "all" then some value else none)) := by
    intro value x
    by_cases hall : value = "all"
    · simp [Selected, hall, paramValues]
    · simp [Selected, hall, or_iff_not_imp_left]
  obtain ⟨hmtypes, hmgroups, hsearch⟩ := params_request f.anyTime offset
  rw [JournalQueryParams.selects_iff _ _ rfl rfl, hmtypes, hmgroups, hsearch, hparam, hparam]
  rfl

/-- The search text that the query is given. -/
theorem search_params_request (offset : ℕ) : (f.anyTime.request offset).params.search = f.search :=
  (params_request f.anyTime offset).2.2

/-- **Where the two agree**: type and group stand for one value each, and a search text, if there is
one, decides nothing. -/
theorem agreesOn_of_oneValue (hmtype : OneValue f.mtype) (hmgroup : OneValue f.mgroup)
    (hsearch : f.search = "" ∨ (∀ c ∈ f.search.toList, c = '%') ∧ f.mgroup ≠ "all" ∧
      includesLower f.mgroup f.search = true) (msg : JournalMessage) :
    f.AgreesOn escapes msg := by
  intro offset
  rw [Bool.eq_iff_iff, matchesFilters_iff, selects_iff, ← admits_iff_selected hmtype,
    ← admits_iff_selected hmgroup]
  refine and_congr_right fun _ => and_congr_right fun hadmits => ?_
  rcases hsearch with hempty | ⟨hmany, hgroup, hfound⟩
  · exact iff_of_true (fun hne => absurd hempty hne) fun hne => absurd hempty hne
  · -- the group of the message has the text in it, and the pattern holds of every text
    have heq : msg.mgroup = f.mgroup := hadmits.resolve_left hgroup
    rw [← search_params_request] at hmany
    refine iff_of_true (fun _ => Or.inr (Or.inr (Or.inr ?_))) fun _ => Or.inl ?_
    · rw [heq]
      exact hfound
    · exact ilike_of_forall _ escapes hmany _

/-- Some message with these values is shown live: one with the search text as its code. -/
theorem matchesFilters_code {x g : String} (hx : Admits f.mtype x) (hg : Admits f.mgroup g) :
    f.matchesFilters ⟨0, 0, "", "", x, g, f.search⟩ = true := by
  rw [matchesFilters_iff]
  exact ⟨hx, hg, fun _ => Or.inr (Or.inr (Or.inl (includesLower_self f.search)))⟩

/-- Some message with these values is found by a load. -/
theorem exists_selects {x g : String} (hx : Selected f.mtype x) (hg : Selected f.mgroup g) :
    ∃ msg : JournalMessage, msg.mtype = x ∧ msg.mgroup = g ∧
      (f.anyTime.request 0).params.selects escapes msg = true := by
  obtain ⟨text, htext⟩ := exists_ilike (f.anyTime.request 0).params escapes
  refine ⟨⟨0, 0, "", text, x, g, ""⟩, rfl, rfl, ?_⟩
  rw [selects_iff]
  exact ⟨hx, hg, fun _ => Or.inl htext⟩

/-- Where the two agree, type and group each stand for one value. -/
theorem oneValue_of_agreesOn (h : ∀ msg, f.AgreesOn escapes msg) :
    OneValue f.mtype ∧ OneValue f.mgroup := by
  have hcode : ∀ x g, Admits f.mtype x → Admits f.mgroup g →
      Selected f.mtype x ∧ Selected f.mgroup g := by
    intro x g hx hg
    have hlive := matchesFilters_code f hx hg
    rw [h _ 0, selects_iff] at hlive
    exact ⟨hlive.1, hlive.2.1⟩
  have hfound : ∀ x g, Selected f.mtype x → Selected f.mgroup g →
      Admits f.mtype x ∧ Admits f.mgroup g := by
    intro x g hx hg
    obtain ⟨msg, rfl, rfl, hselects⟩ := exists_selects f escapes hx hg
    rw [← h msg 0, matchesFilters_iff] at hselects
    exact ⟨hselects.1, hselects.2.1⟩
  constructor
  · by_contra hnot
    obtain ⟨x, hx⟩ := exists_of_not_oneValue hnot
    obtain ⟨g, hg⟩ := exists_admits f.mgroup
    obtain ⟨g', hg'⟩ := exists_selected f.mgroup
    exact hx ⟨fun hadmits => (hcode x g hadmits hg).1, fun hsel => (hfound x g' hsel hg').1⟩
  · by_contra hnot
    obtain ⟨g, hg⟩ := exists_of_not_oneValue hnot
    obtain ⟨x, hx⟩ := exists_admits f.mtype
    obtain ⟨x', hx'⟩ := exists_selected f.mtype
    exact hg ⟨fun hadmits => (hcode x g hx hadmits).2, fun hsel => (hfound x' g hx' hsel).2⟩

/-- Where the two agree, a search text is made of `%` and found in the group that is set. -/
theorem search_of_agreesOn (h : ∀ msg, f.AgreesOn escapes msg) (hsearch : f.search ≠ "") :
    (∀ c ∈ f.search.toList, c = '%') ∧ f.mgroup ≠ "all" ∧
      includesLower f.mgroup f.search = true := by
  obtain ⟨hmtype, hmgroup⟩ := oneValue_of_agreesOn f escapes h
  obtain ⟨x, hx⟩ := exists_admits f.mtype
  obtain ⟨g, hg⟩ := exists_admits f.mgroup
  have hmany : ∀ c ∈ f.search.toList, c = '%' := by
    -- a message that has the text as its code, and no other text
    have hlive := matchesFilters_code f hx hg
    rw [h _ 0, selects_iff] at hlive
    have hempty := or_self_iff.mp (hlive.2.2 hsearch)
    rw [ilike_empty_iff, search_params_request] at hempty
    exact hempty
  -- a message that has no text: it is found, so the text is in its group
  have hgroup : ∀ g, Admits f.mgroup g → includesLower g f.search = true := by
    intro g hg
    have hselects :
        (f.anyTime.request 0).params.selects escapes ⟨0, 0, "", "", x, g, ""⟩ = true := by
      rw [selects_iff, ← admits_iff_selected hmtype, ← admits_iff_selected hmgroup]
      refine ⟨hx, hg, fun _ => Or.inl ?_⟩
      rw [ilike_empty_iff, search_params_request]
      exact hmany
    rw [← h _ 0, matchesFilters_iff] at hselects
    simpa [includesLower_empty hsearch] using hselects.2.2 hsearch
  refine ⟨hmany, fun hall => ?_, hgroup _ (Or.inr rfl)⟩
  -- without a group that is set, the group may be empty
  have hempty := hgroup "" (Or.inl hall)
  rw [includesLower_empty hsearch] at hempty
  exact Bool.false_ne_true hempty

end JournalFilters

/-! ### All messages -/

/-- **The view and the query agree** exactly where type and group each stand for one value, and
there is no search text, or only one made of `%` that is found in the group that is set. -/
theorem filtersAgree_iff (f : JournalFilters) (escapes : Bool) :
    (∀ msg, f.AgreesOn escapes msg) ↔ OneValue f.mtype ∧ OneValue f.mgroup ∧
      (f.search = "" ∨ (∀ c ∈ f.search.toList, c = '%') ∧ f.mgroup ≠ "all" ∧
        includesLower f.mgroup f.search = true) := by
  constructor
  · intro h
    obtain ⟨hmtype, hmgroup⟩ := f.oneValue_of_agreesOn escapes h
    exact ⟨hmtype, hmgroup, or_iff_not_imp_left.mpr (f.search_of_agreesOn escapes h)⟩
  · rintro ⟨hmtype, hmgroup, hsearch⟩ msg
    exact f.agreesOn_of_oneValue escapes hmtype hmgroup hsearch msg

/-- **A search without special letters** for one type and one group: the two agree on a message that
passes these exactly if the text is not found in its code or its group alone. -/
theorem agreesOn_iff_of_search (f : JournalFilters) (escapes : Bool) (msg : JournalMessage)
    (hmtype : OneValue f.mtype) (hmgroup : OneValue f.mgroup) (hsearch : f.search ≠ "")
    (hplain : ∀ c ∈ f.search.toList, LikePattern.isSpecial c = false)
    (htype : Admits f.mtype msg.mtype) (hgroup : Admits f.mgroup msg.mgroup) :
    f.AgreesOn escapes msg ↔
      (includesLower msg.mcode f.search = true ∨ includesLower msg.mgroup f.search = true →
        includesLower msg.name f.search = true ∨ includesLower msg.message f.search = true) := by
  have hilike : ∀ offset text, ilike escapes text (f.anyTime.request offset).params.searchPattern =
      includesLower text f.search := by
    intro offset text
    rw [ilike_eq_includesLower _ escapes (by rw [f.search_params_request]; exact hplain),
      f.search_params_request]
  have hmessage : ∀ offset,
      f.matchesFilters msg = (f.anyTime.request offset).params.selects escapes msg ↔
        (includesLower msg.mcode f.search = true ∨ includesLower msg.mgroup f.search = true →
          includesLower msg.name f.search = true ∨ includesLower msg.message f.search = true) := by
    intro offset
    rw [Bool.eq_iff_iff, f.matchesFilters_iff, f.selects_iff, ← admits_iff_selected hmtype,
      ← admits_iff_selected hmgroup, hilike, hilike]
    simp only [htype, hgroup, true_and, hsearch, ne_eq, not_false_eq_true, true_implies]
    constructor
    · intro h hfound
      exact (h.mp (Or.inr (Or.inr hfound))).symm
    · intro h
      constructor
      · rintro (hname | hmessage | hfound)
        · exact Or.inr hname
        · exact Or.inl hmessage
        · exact (h hfound).symm
      · rintro (hmessage | hname)
        · exact Or.inr (Or.inl hmessage)
        · exact Or.inl hname
  exact ⟨fun h => (hmessage 0).mp (h 0), fun h offset => (hmessage offset).mpr h⟩

/-- **A load after live rows**: where the two agree, the number of messages that a load finds is
that of the rows that the view would show live. -/
theorem total_queryMessages (f : JournalFilters) (escapes : Bool) (o : RowOrder (· ≥ ·))
    (rows : List JournalRow) (limit offset : ℤ) (h : ∀ msg, f.AgreesOn escapes msg) (n : ℕ) :
    (queryMessages o ((f.anyTime.request n).params.selects escapes) rows limit offset).total =
      rows.countP fun row => f.matchesFilters row.message := by
  have hfilter : (fun row : JournalRow => f.matchesFilters row.message) =
      fun row => (f.anyTime.request n).params.selects escapes row.message :=
    funext fun row => h row.message n
  rw [hfilter, List.countP_eq_length_filter]
  rfl

end UnisetPanel
