/-
  Navigation between dashboards: any number of calls of `loadDashboard`, and the
  responses to the requests they make, in any order.

  Nothing ties a response to the call that is still wanted: a response to an
  earlier call shows its dashboard over the one that was asked for last, and an
  error clears it (`not_lastRequestWins`), while the selector has the last one.
  The last request wins in the runs in which an earlier call ends only while the
  last one waits, or ends as that one did (`lastRequestWins_of_inTime`).
-/
import UnisetPanel.Browser.Dashboards
import UnisetPanel.Machine

namespace UnisetPanel

/-- The last call of `loadDashboard`. -/
structure LastCall where
  number : ℕ
  name : String
  /-- whether it succeeded, once it has finished -/
  outcome : Option Bool
  deriving DecidableEq, Repr

/-- The page, and the calls of `loadDashboard`, which are numbered. -/
structure DashboardNavigation where
  page : Dashboards
  calls : ℕ
  /-- the calls that wait for their response, with the names they ask for -/
  pending : AList fun _ : ℕ => String
  last : Option LastCall

/-- A call, or the response to one; none where it is an error. -/
inductive NavigationAction where
  | load (name : String)
  | response (call : ℕ) (fullConfig : Option DashboardConfig)

namespace DashboardNavigation

variable (s : DashboardNavigation)

/-- No call was made yet. -/
def new (page : Dashboards) : DashboardNavigation := ⟨page, 0, ∅, none⟩

/-- `loadDashboard` is called. -/
def load (name : String) : DashboardNavigation :=
  match s.page.loadDashboard name with
  | (page, true) =>
    { page := page
      calls := s.calls + 1
      pending := s.pending.insert s.calls name
      last := some ⟨s.calls, name, none⟩ }
  | (page, false) =>
    { s with
      page := page
      calls := s.calls + 1
      last := some ⟨s.calls, name, some (name ≠ "" && (s.page.dashboards.lookup name).isSome)⟩ }

/-- A call has its response. -/
def response (call : ℕ) (name : String) (fullConfig : Option DashboardConfig) :
    DashboardNavigation :=
  { s with
    page := s.page.fetched name fullConfig
    pending := s.pending.erase call
    last := s.last.map fun l =>
      if l.number = call then { l with outcome := some fullConfig.isSome } else l }

/-- One step. -/
def step : NavigationAction → Option DashboardNavigation
  | .load name => some (s.load name)
  | .response call fullConfig =>
    (s.pending.lookup call).map fun name => s.response call name fullConfig

end DashboardNavigation

/-- The runs on a page. -/
def navigationMachine (page : Dashboards) : Machine DashboardNavigation NavigationAction where
  init := .new page
  step := DashboardNavigation.step

/-- What a call is to leave: its dashboard if it succeeded, else the empty one. -/
def Dashboards.Shows (s : Dashboards) (name : String) (ok : Bool) : Prop :=
  if ok = true then s.currentDashboard = some name ∧
    ∃ config, s.dashboards.lookup name = some config ∧ s.widgets = config.rendered
  else s.currentDashboard = none ∧ s.widgets = []

namespace DashboardNavigation

variable (s : DashboardNavigation)

/-- **The last request wins**: once all calls have finished, the page shows what the last one is to
leave. -/
def LastRequestWins : Prop :=
  s.pending.entries = [] → ∀ l ∈ s.last, ∃ ok, l.outcome = some ok ∧ s.page.Shows l.name ok

/-- A call before the last ends only while the last one waits, or ends as it did: with the same
dashboard, or with an error after an error. -/
def InTime : NavigationAction → Prop
  | .load _ => True
  | .response call fullConfig => ∀ name, s.pending.lookup call = some name → ∀ l ∈ s.last,
      l.number = call ∨ l.outcome = none ∨
        (l.outcome = some true ∧ fullConfig.isSome = true ∧ name = l.name) ∨
        (l.outcome = some false ∧ fullConfig = none)

/-! ### A late response -/

/-- A dashboard without widgets. -/
def emptyDashboard (server : Bool) : DashboardConfig := ⟨⟨"", "", none, none⟩, [], server, false⟩

/-- One dashboard of the server and one of the user. -/
def twoDashboards : Dashboards :=
  { Dashboards.new with
    dashboards := AList.insert "srv" (emptyDashboard true)
      (AList.insert "mine" (emptyDashboard false) ∅) }

/-- The one of the server is asked for first and comes last. -/
def lateResponse : List NavigationAction :=
  [.load "srv", .load "mine", .response 0 (some (emptyDashboard true))]

/-- **It fails**: the dashboard that was asked for first is shown. -/
theorem not_lastRequestWins :
    ¬ ∀ page as s, (navigationMachine page).run (.new page) as = some s → s.LastRequestWins := by
  intro h
  obtain ⟨ok, hok, hshows⟩ := h twoDashboards lateResponse _ rfl rfl _ rfl
  obtain rfl : ok = true := (Option.some.inj hok).symm
  exact absurd hshows.1 (by decide)

/-! ### One step -/

/-- The calls that wait are earlier ones; the last one waits, or what it is to leave is shown. -/
structure Inv (s : DashboardNavigation) : Prop where
  fresh : ∀ call name, s.pending.lookup call = some name → call < s.calls
  waiting : ∀ l ∈ s.last, l.outcome = none → s.pending.lookup l.number = some l.name
  decided : ∀ l ∈ s.last, ∀ ok, l.outcome = some ok →
    s.pending.lookup l.number = none ∧ s.page.Shows l.name ok

variable {s}

theorem shows_showDashboard {page : Dashboards} {name : String} {config : DashboardConfig}
    (h : page.dashboards.lookup name = some config) :
    (page.showDashboard name config).Shows name true := by
  simp [Dashboards.Shows, Dashboards.showDashboard, h]

theorem shows_clearDashboard {page : Dashboards} {name : String} :
    page.clearDashboard.Shows name false := by
  simp [Dashboards.Shows, Dashboards.clearDashboard]

theorem shows_fetched {page : Dashboards} (name : String) (fullConfig : Option DashboardConfig) :
    (page.fetched name fullConfig).Shows name fullConfig.isSome := by
  cases fullConfig with
  | none => exact shows_clearDashboard
  | some fullConfig => exact shows_showDashboard (AList.lookup_insert _)

/-- The new number is not pending. -/
theorem lookup_calls (hs : s.Inv) : s.pending.lookup s.calls = none := by
  cases hcall : s.pending.lookup s.calls with
  | none => rfl
  | some other =>
    have := hs.fresh s.calls other hcall
    omega

/-- A call that ends at once, and leaves what it is to leave. -/
theorem inv_ended {page : Dashboards} {name : String} {ok : Bool} (hs : s.Inv)
    (hshows : page.Shows name ok) :
    Inv { s with page := page, calls := s.calls + 1, last := some ⟨s.calls, name, some ok⟩ } := by
  refine ⟨?_, ?_, ?_⟩
  · intro call other hcall
    have := hs.fresh call other hcall
    simp only
    omega
  · intro l hl hwaits
    obtain rfl := Option.some.inj hl
    simp at hwaits
  · intro l hl ok' hok
    obtain rfl := Option.some.inj hl
    obtain rfl := Option.some.inj hok
    exact ⟨lookup_calls hs, hshows⟩

/-- A call that waits for its response. -/
theorem inv_waits (name : String) (hs : s.Inv) :
    Inv ⟨s.page, s.calls + 1, s.pending.insert s.calls name, some ⟨s.calls, name, none⟩⟩ := by
  refine ⟨?_, ?_, ?_⟩
  · intro call other hcall
    by_cases hnew : call = s.calls
    · simp only
      omega
    · rw [AList.lookup_insert_ne hnew] at hcall
      have := hs.fresh call other hcall
      simp only
      omega
  · intro l hl _
    obtain rfl := Option.some.inj hl
    exact AList.lookup_insert _
  · intro l hl ok hok
    obtain rfl := Option.some.inj hl
    simp at hok

theorem inv_load (name : String) (hs : s.Inv) : (s.load name).Inv := by
  rcases Dashboards.loadDashboard_cases (s := s.page) name with ⟨config, hname, hconfig, -, h⟩ |
    ⟨config, -, -, -, h⟩ | ⟨hnone, h⟩
  · have hload : s.load name = { s with
        page := s.page.showDashboard name config
        calls := s.calls + 1
        last := some ⟨s.calls, name, some true⟩ } := by
      simp [load, h, hname, hconfig]
    rw [hload]
    exact inv_ended hs (shows_showDashboard hconfig)
  · have hload : s.load name = ⟨s.page, s.calls + 1, s.pending.insert s.calls name,
        some ⟨s.calls, name, none⟩⟩ := by
      simp [load, h]
    rw [hload]
    exact inv_waits name hs
  · have hload : s.load name = { s with
        page := s.page.clearDashboard
        calls := s.calls + 1
        last := some ⟨s.calls, name, some false⟩ } := by
      rcases hnone with rfl | hnone
      · simp [load, h]
      · simp [load, h, hnone]
    rw [hload]
    exact inv_ended hs shows_clearDashboard

theorem lookup_erase (call other : ℕ) :
    (s.pending.erase call).lookup other =
      if other = call then none else s.pending.lookup other := by
  by_cases h : other = call
  · rw [if_pos h, h, AList.lookup_erase]
  · rw [if_neg h, AList.lookup_erase_ne h]

theorem inv_response {call : ℕ} {name : String} (fullConfig : Option DashboardConfig)
    (hs : s.Inv) (hcall : s.pending.lookup call = some name)
    (htime : s.InTime (.response call fullConfig)) : (s.response call name fullConfig).Inv := by
  refine ⟨?_, ?_, ?_⟩
  · intro other n hother
    simp only [response, lookup_erase] at hother
    split_ifs at hother
    exact hs.fresh other n hother
  · intro l hl hwaits
    obtain ⟨l₀, hl₀, hl⟩ := Option.map_eq_some_iff.mp hl
    split_ifs at hl with hnumber
    · rw [← hl] at hwaits
      simp at hwaits
    · rw [← hl] at hwaits ⊢
      simp only [response, lookup_erase, if_neg hnumber]
      exact hs.waiting l₀ hl₀ hwaits
  · intro l hl ok hok
    obtain ⟨l₀, hl₀, hl⟩ := Option.map_eq_some_iff.mp hl
    split_ifs at hl with hnumber
    · -- the last call itself
      have hwaits : l₀.outcome = none := by
        cases hout : l₀.outcome with
        | none => rfl
        | some done =>
          have := (hs.decided l₀ hl₀ done hout).1
          rw [hnumber, hcall] at this
          simp at this
      have hname : name = l₀.name := by
        have := hs.waiting l₀ hl₀ hwaits
        rw [hnumber, hcall] at this
        exact Option.some.inj this
      rw [← hl] at hok ⊢
      obtain rfl := Option.some.inj hok
      refine ⟨?_, ?_⟩
      · simp only [response, lookup_erase, hnumber, if_true]
      · rw [← hname]
        exact shows_fetched name fullConfig
    · rw [← hl] at hok ⊢
      refine ⟨?_, ?_⟩
      · simp only [response, lookup_erase, if_neg hnumber]
        exact (hs.decided l₀ hl₀ ok hok).1
      · -- an earlier call that ends as the last one did
        have hshows : (s.page.fetched name fullConfig).Shows name fullConfig.isSome :=
          shows_fetched name fullConfig
        rcases htime name hcall l₀ hl₀ with h | h | ⟨h, hsome, hname⟩ | ⟨h, hnone⟩
        · exact absurd h hnumber
        · simp [h] at hok
        · obtain rfl : ok = true := Option.some.inj (hok.symm.trans h)
          rw [hsome, hname] at hshows
          exact hname ▸ hshows
        · obtain rfl : ok = false := Option.some.inj (hok.symm.trans h)
          rw [hnone]
          exact shows_clearDashboard

/-! ### The runs -/

theorem lastRequestWins_of_inv (hs : s.Inv) : s.LastRequestWins := by
  intro hpending l hl
  cases hout : l.outcome with
  | none =>
    have hwaits := hs.waiting l hl hout
    simp [AList.lookup, hpending] at hwaits
  | some ok => exact ⟨ok, rfl, (hs.decided l hl ok hout).2⟩

/-- **The last request wins** in the runs in which a call before the last ends only while the last
one waits, or ends as it did. -/
theorem lastRequestWins_of_inTime (page : Dashboards) {as : List NavigationAction}
    {s : DashboardNavigation} (hrun : (navigationMachine page).run (.new page) as = some s)
    (htime : (navigationMachine page).EveryStep InTime as) : s.LastRequestWins := by
  refine lastRequestWins_of_inv (htime.induction (I := Inv) ?_ ?_ hrun)
  · refine ⟨?_, ?_, ?_⟩
    · intro call name hcall
      simp [navigationMachine, new] at hcall
    · intro l hl
      simp [navigationMachine, new] at hl
    · intro l hl
      simp [navigationMachine, new] at hl
  · intro s a t hs ha hstep
    cases a with
    | load name => exact Option.some.inj hstep ▸ inv_load name hs
    | response call fullConfig =>
      obtain ⟨name, hcall, rfl⟩ := Option.map_eq_some_iff.mp hstep
      exact inv_response fullConfig hs hcall ha

/-- The dashboard of the server is asked for twice, and the calls end in their order. -/
theorem lastRequestWins_twice :
    ((((new twoDashboards).load "srv").load "srv").response 0 "srv" none).response 1 "srv"
      (some (emptyDashboard true)) |>.LastRequestWins := by
  have hfirst : (navigationMachine twoDashboards).EveryStep InTime [.load "srv", .load "srv"] :=
    (Machine.everyStep_nil.concat rfl trivial).concat rfl trivial
  have htime : (navigationMachine twoDashboards).EveryStep InTime [.load "srv", .load "srv",
      .response 0 none, .response 1 (some (emptyDashboard true))] := by
    refine (hfirst.concat rfl ?_).concat rfl ?_
    · intro name _ l hl
      obtain rfl := Option.some.inj hl
      exact Or.inr (Or.inl rfl)
    · intro name _ l hl
      obtain rfl := Option.some.inj hl
      exact Or.inl rfl
  exact lastRequestWins_of_inTime twoDashboards rfl htime

end DashboardNavigation

end UnisetPanel
