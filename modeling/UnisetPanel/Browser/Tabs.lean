/-
  Opening and closing the tabs of the browser (`50-ui-tabs.js`), and the sets of
  objects that the pollers watch for them (`WatchObject`, `UnwatchObject`).

  A tab is kept under the key `serverId:name`.  Opening it sends a watch request
  with the name and the server; closing it sends an unwatch request with the
  key in place of the name, and without a server.  Such a request goes to the
  poller of the server that the manager named first at the start, whose set has
  no reason to hold that key.  So after a tab is closed its object is watched
  on (`not_watchedExactly`), and the sets agree with the tabs at every point of
  a run exactly when the run closes nothing (`watchedExactly_iff`).

  A step is a call with all its requests, and all of them succeed.
-/
import UnisetPanel.GoMap
import UnisetPanel.Machine
import UnisetPanel.Storage.Rows

namespace UnisetPanel

/-- The servers of the manager, and the one whose poller the handlers fall back on. -/
structure Servers where
  instances : Finset String
  /-- `GetFirstServer`; none if there was no server at the start -/
  first : Option String
  first_mem : ∀ server ∈ first, server ∈ instances

/-- `watchedObjects` of the poller of each server. -/
abbrev WatchedObjects := String → Finset String

namespace Servers

variable (v : Servers)

/-- Which poller a request is for, by its parameter `server`. -/
def poller (serverID : String) : Except String (Option String) :=
  if serverID ≠ "" then
    if serverID ∈ v.instances then .ok (some serverID)
    else .error ("server " ++ serverID.quote ++ " not found")
  -- without the parameter: the poller that the handlers were made with
  else .ok v.first

/-- A change to the watched set of a poller, if there is one. -/
def updateWatched (f : Finset String → Finset String) (w : WatchedObjects) :
    Option String → WatchedObjects
  | none => w
  | some server => Function.update w server (f (w server))

/-- A handler that changes the watched set of that poller. -/
def changeWatched (f : Finset String → Finset String) (name serverID : String)
    (w : WatchedObjects) : Except String WatchedObjects :=
  if name = "" then .error "object name required"
  else (v.poller serverID).map (updateWatched f w)

/-- `WatchObject`. -/
def watchObject (name serverID : String) (w : WatchedObjects) : Except String WatchedObjects :=
  v.changeWatched (insert name) name serverID w

/-- `UnwatchObject`. -/
def unwatchObject (name serverID : String) (w : WatchedObjects) : Except String WatchedObjects :=
  v.changeWatched (·.erase name) name serverID w

/-- `GetObjectData`, of a server that answers. -/
def getObjectData (name serverID : String) : Except String Unit :=
  if name = "" then .error "object name required"
  else if serverID = "" then .error "server parameter is required"
  else if serverID ∈ v.instances then .ok ()
  else .error ("server " ++ serverID.quote ++ " not found")

end Servers

/-- The key of a tab. -/
def tabKey (serverID name : String) : String := serverID ++ ":" ++ name

theorem tabKey_inj_right {serverID o o' : String} (h : tabKey serverID o = tabKey serverID o') :
    o = o' := by
  have hlists := congrArg String.toList h
  simp only [tabKey, String.toList_append, List.append_cancel_left_eq] at hlists
  exact String.toList_injective hlists

/-- Keys of servers without a colon in their names are of the same server only. -/
theorem serverID_eq_of_tabKey_eq {serverID serverID' o o' : String}
    (h : ':' ∉ serverID.toList) (h' : ':' ∉ serverID'.toList)
    (hkey : tabKey serverID o = tabKey serverID' o') : serverID = serverID' := by
  have hlists := congrArg String.toList hkey
  have hparts : ∀ a b : String, (tabKey a b).toList = a.toList ++ ':' :: b.toList := by
    intro a b
    simp [tabKey, String.toList_append]
  rw [hparts, hparts] at hlists
  obtain ⟨hserver, -⟩ := append_cons_inj_of_notMem h h' hlists
  exact String.toList_injective hserver

/-- What `state.tabs` holds about the object of a tab. -/
structure Tab where
  serverID : String
  displayName : String
  deriving DecidableEq, Repr

/-- The tabs of the browser, and the watched sets of the pollers. -/
structure BrowserState where
  tabs : GoMap String Tab
  watchedObjects : WatchedObjects

/-- A call of the browser. -/
inductive BrowserCall where
  | openObjectTab (name serverID : String)
  | closeTab (name : String)
  deriving DecidableEq, Repr

namespace BrowserState

variable (v : Servers) (s : BrowserState)

/-- `openObjectTab`; `none` if a request fails. -/
def openObjectTab (name serverID : String) : Option BrowserState :=
  if (s.tabs.lookup (tabKey serverID name)).isSome then some s
  else
    match v.getObjectData name serverID, v.watchObject name serverID s.watchedObjects with
    | .ok _, .ok w => some ⟨s.tabs.insert (tabKey serverID name) ⟨serverID, name⟩, w⟩
    | _, _ => none

/-- `closeTab`; `none` if the request fails. -/
def closeTab (name : String) : Option BrowserState :=
  -- `name` is the key of the tab, and no server is given
  match v.unwatchObject name "" s.watchedObjects with
  | .ok w => some ⟨s.tabs.erase name, w⟩
  | .error _ => none

/-- A tab of the object is open. -/
def IsOpen (serverID name : String) : Prop := ∃ key, s.tabs.lookup key = some ⟨serverID, name⟩

end BrowserState

/-- The calls of one browser, from no tab on. -/
def browserMachine (v : Servers) : Machine BrowserState BrowserCall where
  init := ⟨∅, fun _ => ∅⟩
  step s
    | .openObjectTab name serverID => s.openObjectTab v name serverID
    | .closeTab name => s.closeTab v name

/-- The poller of each server watches exactly the objects with an open tab. -/
def WatchedExactly (v : Servers) (s : BrowserState) : Prop :=
  ∀ server ∈ v.instances, ∀ name, name ∈ s.watchedObjects server ↔ s.IsOpen server name

/-- A call closes no tab, and its unwatch request hits no object that is open on the first
server. -/
def ClosesNothing (v : Servers) (s : BrowserState) : BrowserCall → Prop
  | .openObjectTab _ _ => True
  | .closeTab name => s.tabs.lookup name = none ∧ ∀ server ∈ v.first, ¬ s.IsOpen server name

/-! ### A tab that is closed -/

/-- One server. -/
def oneServer : Servers := ⟨{"s1"}, some "s1", by decide⟩

/-- A tab is opened and closed. -/
def openCloseRun : List BrowserCall := [.openObjectTab "TestProc" "s1", .closeTab "s1:TestProc"]

/-- After that, the object is watched still. -/
theorem not_watchedExactly : ¬ ∀ (v : Servers) (calls : List BrowserCall) (s : BrowserState),
    (browserMachine v).run (browserMachine v).init calls = some s →
    (browserMachine v).Throughout (WatchedExactly v) calls := by
  intro h
  have hlast := (h oneServer openCloseRun _ rfl).last rfl "s1" (by decide) "TestProc"
  obtain ⟨key, hkey⟩ := hlast.mp (by decide)
  let opened : GoMap String Tab := Finmap.insert "s1:TestProc" ⟨"s1", "TestProc"⟩ ∅
  have hkey : Finmap.lookup key (opened.erase "s1:TestProc") = some ⟨"s1", "TestProc"⟩ := hkey
  rw [GoMap.lookup_erase, GoMap.lookup_insert] at hkey
  split_ifs at hkey
  cases hkey

/-! ### What the two calls do -/

theorem tabKey_ne_right (serverID name : String) : tabKey serverID name ≠ name := by
  intro h
  have hlen := congrArg String.length h
  simp only [tabKey, String.length_append] at hlen
  have hcolon : String.length ":" = 1 := rfl
  omega

variable {v : Servers} {s s' : BrowserState} {name serverID : String}

/-- A tab that is open is only activated; otherwise it is created and its object watched. -/
theorem openObjectTab_eq_some (h : s.openObjectTab v name serverID = some s') :
    s' = s ∨
      s.tabs.lookup (tabKey serverID name) = none ∧ serverID ∈ v.instances ∧
        s' = ⟨s.tabs.insert (tabKey serverID name) ⟨serverID, name⟩,
          Function.update s.watchedObjects serverID
            (insert name (s.watchedObjects serverID))⟩ := by
  unfold BrowserState.openObjectTab at h
  split_ifs at h with hsome
  · exact .inl (Option.some.inj h).symm
  · have hnone : s.tabs.lookup (tabKey serverID name) = none := by simpa using hsome
    simp only [Servers.getObjectData, Servers.watchObject, Servers.changeWatched,
      Servers.poller] at h
    split_ifs at h with hname hserver hmem
    exact .inr ⟨hnone, hmem, (Option.some.inj h).symm⟩

/-- The key goes from the tabs, and from the set of the first server. -/
theorem closeTab_eq_some (h : s.closeTab v name = some s') :
    s' = ⟨s.tabs.erase name, Servers.updateWatched (·.erase name) s.watchedObjects v.first⟩ := by
  simp only [BrowserState.closeTab, Servers.unwatchObject, Servers.changeWatched, Servers.poller,
    ne_eq, not_true_eq_false, if_false] at h
  split_ifs at h
  exact (Option.some.inj h).symm

theorem mem_updateWatched_erase {w : WatchedObjects} {first : Option String} {server o : String} :
    o ∈ Servers.updateWatched (·.erase name) w first server ↔
      o ∈ w server ∧ ¬ (server ∈ first ∧ o = name) := by
  cases first with
  | none => simp [Servers.updateWatched]
  | some first =>
    by_cases hs : server = first
    · subst hs
      simp [Servers.updateWatched, and_comm]
    · simp [Servers.updateWatched, Function.update_of_ne hs, Ne.symm hs]

/-! ### The bookkeeping over a run -/

/-- Every tab is kept under its own key and is of a known server, and the sets are exact. -/
structure TabsInv (v : Servers) (s : BrowserState) : Prop where
  key_eq : ∀ key tab, s.tabs.lookup key = some tab → key = tabKey tab.serverID tab.displayName
  known : ∀ key tab, s.tabs.lookup key = some tab → tab.serverID ∈ v.instances
  watched : WatchedExactly v s

theorem tabsInv_init (v : Servers) : TabsInv v (browserMachine v).init where
  key_eq _ _ h := by cases h
  known _ _ h := by cases h
  watched server _ name := iff_of_false (Finset.notMem_empty name) (by rintro ⟨key, h⟩; cases h)

theorem isOpen_insert {w : WatchedObjects} {server o : String}
    (hnone : s.tabs.lookup (tabKey serverID name) = none) :
    (⟨s.tabs.insert (tabKey serverID name) ⟨serverID, name⟩, w⟩ : BrowserState).IsOpen server o ↔
      (server = serverID ∧ o = name) ∨ s.IsOpen server o := by
  simp only [BrowserState.IsOpen, GoMap.lookup_insert]
  constructor
  · rintro ⟨key, h⟩
    split_ifs at h with hkey
    · have htab := Tab.mk.inj (Option.some.inj h)
      exact .inl ⟨htab.1.symm, htab.2.symm⟩
    · exact .inr ⟨key, h⟩
  · rintro (⟨rfl, rfl⟩ | ⟨key, h⟩)
    · exact ⟨_, if_pos rfl⟩
    · have hkey : key ≠ tabKey serverID name := by
        rintro rfl
        rw [hnone] at h
        cases h
      exact ⟨key, by rw [if_neg hkey, h]⟩

theorem TabsInv.isOpen_erase (hI : TabsInv v s) {w : WatchedObjects} {server o : String} :
    (⟨s.tabs.erase name, w⟩ : BrowserState).IsOpen server o ↔
      s.IsOpen server o ∧ tabKey server o ≠ name := by
  simp only [BrowserState.IsOpen, GoMap.lookup_erase]
  constructor
  · rintro ⟨key, h⟩
    split_ifs at h with hkey
    exact ⟨⟨key, h⟩, hI.key_eq key _ h ▸ hkey⟩
  · rintro ⟨⟨key, h⟩, hkey⟩
    exact ⟨key, by rw [if_neg (hI.key_eq key _ h ▸ hkey), h]⟩

/-- **Opening** keeps the bookkeeping. -/
theorem TabsInv.openObjectTab (hI : TabsInv v s)
    (h : s.openObjectTab v name serverID = some s') : TabsInv v s' := by
  rcases openObjectTab_eq_some h with rfl | ⟨hnone, hmem, rfl⟩
  · exact hI
  refine ⟨GoMap.forall_insert hI.key_eq rfl, GoMap.forall_insert hI.known hmem,
    fun server hserver o => ?_⟩
  rw [isOpen_insert hnone, ← hI.watched server hserver o]
  by_cases hs : server = serverID
  · subst hs
    simp
  · simp [hs]

/-- **Closing** leaves the sets exact only if it closes nothing. -/
theorem TabsInv.watchedExactly_closeTab (hI : TabsInv v s) (h : s.closeTab v name = some s') :
    WatchedExactly v s' ↔ ClosesNothing v s (.closeTab name) := by
  obtain rfl := closeTab_eq_some h
  constructor
  · intro hw
    refine ⟨?_, fun server hfirst hopen => ?_⟩
    · by_contra hne
      obtain ⟨⟨serverID, o⟩, htab⟩ := Option.ne_none_iff_exists'.mp hne
      have hkey : name = tabKey serverID o := hI.key_eq name _ htab
      have hserver := hI.known name _ htab
      -- the object stays in the set of its server, as the key is not its name
      have hwatched : o ∈ s.watchedObjects serverID :=
        (hI.watched serverID hserver o).mpr ⟨name, htab⟩
      have hstill := (hw serverID hserver o).mp (mem_updateWatched_erase.mpr
        ⟨hwatched, fun ho => tabKey_ne_right serverID o (hkey ▸ ho.2.symm)⟩)
      exact (hI.isOpen_erase.mp hstill).2 hkey.symm
    · -- the name is open on the first server, and goes from its set
      have hwatched := (hw server (v.first_mem server hfirst) name).mpr
        (hI.isOpen_erase.mpr ⟨hopen, tabKey_ne_right server name⟩)
      exact (mem_updateWatched_erase.mp hwatched).2 ⟨hfirst, rfl⟩
  · rintro ⟨hnone, hfirst⟩ server hserver o
    rw [mem_updateWatched_erase, hI.watched server hserver o, hI.isOpen_erase]
    refine and_congr_right fun hopen => iff_of_true ?_ ?_
    · rintro ⟨hs, rfl⟩
      exact hfirst server hs hopen
    · rintro rfl
      obtain ⟨key, hkey⟩ := hopen
      obtain rfl := hI.key_eq key _ hkey
      exact absurd (hnone.symm.trans hkey) (by nofun)

theorem TabsInv.closeTab (hI : TabsInv v s) (h : s.closeTab v name = some s')
    (hc : ClosesNothing v s (.closeTab name)) : TabsInv v s' := by
  have hexact := (hI.watchedExactly_closeTab h).mpr hc
  obtain rfl := closeTab_eq_some h
  exact ⟨GoMap.forall_erase hI.key_eq name, GoMap.forall_erase hI.known name, hexact⟩

/-- **When the bookkeeping is exact**: at every point of the runs that close nothing. -/
theorem watchedExactly_iff (v : Servers) {calls : List BrowserCall} {s : BrowserState}
    (hrun : (browserMachine v).run (browserMachine v).init calls = some s) :
    (browserMachine v).Throughout (WatchedExactly v) calls ↔
      (browserMachine v).EveryStep (ClosesNothing v) calls := by
  refine Machine.throughout_iff_everyStep (I := TabsInv v) (tabsInv_init v) ?_
    (fun s h => h.watched) ?_ hrun
  · rintro s (⟨name, serverID⟩ | name) s' hI hc h
    · exact hI.openObjectTab h
    · exact hI.closeTab h hc
  · rintro s (⟨name, serverID⟩ | name) s' hI hc h
    · exact absurd trivial hc
    · exact mt (hI.watchedExactly_closeTab h).mp hc

/-- A tab that is opened, and opened again. -/
theorem watchedExactly_openTwice : (browserMachine oneServer).Throughout (WatchedExactly oneServer)
    [.openObjectTab "TestProc" "s1", .openObjectTab "TestProc" "s1"] :=
  (watchedExactly_iff oneServer rfl).mpr
    ((Machine.everyStep_nil.concat rfl trivial).concat rfl trivial)

end UnisetPanel
