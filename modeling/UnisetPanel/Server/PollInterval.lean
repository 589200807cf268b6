/-
  The poll interval: `AddServer`, `RemoveServer` and `SetPollInterval` of
  `server.Manager`, and the tickers of the pollers they create and stop.

  `NewInstance` gives the interval of the moment to the four pollers of an
  instance, and each loop makes its ticker from it when it starts.
  `SetPollInterval` is to change "the poll interval of all servers".  It keeps
  the new interval for the instances to come, and of the instances that exist
  it changes the interval of the health check only; no poller has a method
  that would change its own.

  `UniformAfter` says that every poller polls at the interval set last.  It
  holds after every operation of exactly the runs that change the interval only
  while there is no server (`uniformAfter_iff`).  Of the health checks it holds
  in every run (`healthInterval_eq`).
-/
import UnisetPanel.GoMap
import UnisetPanel.Machine
import UnisetPanel.Timer

namespace UnisetPanel

namespace PollInterval

/-! ### Pollers -/

/-- A poller, as far as its loop goes: `poller.Poller` and `BasePoller` alike. -/
structure Poller where
  /-- the field `interval` -/
  interval : Duration
  /-- the period of the ticker its loop waits for, once the loop runs -/
  ticker : Option Duration
  deriving DecidableEq

namespace Poller

/-- `poller.New` and `NewBasePoller`. -/
def new (interval : Duration) : Poller := ⟨interval, none⟩

/-- `Run` and `pollLoop` begin with `time.NewTicker(p.interval)`.  (No ticker has the period zero;
the handler of the API lets one second to five minutes through.) -/
def start (p : Poller) : Poller := { p with ticker := some p.interval }

end Poller

/-- The configuration of a server. -/
structure ServerConfig where
  id : String
  url : String

/-- An instance: its pollers and the interval of its health check. -/
structure Instance where
  config : ServerConfig
  poller : Poller
  ioncPoller : Poller
  modbusPoller : Poller
  opcuaPoller : Poller
  healthInterval : Duration

namespace Instance

/-- `NewInstance`. -/
def new (cfg : ServerConfig) (pollInterval : Duration) : Instance where
  config := cfg
  poller := .new pollInterval
  ioncPoller := .new pollInterval
  modbusPoller := .new pollInterval
  opcuaPoller := .new pollInterval
  healthInterval := pollInterval

/-- `Start`. -/
def start (i : Instance) : Instance :=
  { i with
    poller := i.poller.start
    ioncPoller := i.ioncPoller.start
    modbusPoller := i.modbusPoller.start
    opcuaPoller := i.opcuaPoller.start }

/-- `SetHealthInterval`. -/
def setHealthInterval (i : Instance) (interval : Duration) : Instance :=
  { i with healthInterval := interval }

/-- The pollers of the instance. -/
def pollers (i : Instance) : List Poller := [i.poller, i.ioncPoller, i.modbusPoller, i.opcuaPoller]

/-- Every poller of the instance polls at `interval`. -/
def PollsAt (i : Instance) (interval : Duration) : Prop :=
  ∀ p ∈ i.pollers, p.ticker = some interval

theorem pollsAt_start_new (cfg : ServerConfig) (interval : Duration) :
    (new cfg interval).start.PollsAt interval := by
  simp [PollsAt, pollers, start, new, Poller.start, Poller.new]

/-- The interval of the health check is none of the pollers' business. -/
@[simp] theorem pollsAt_setHealthInterval (i : Instance) (d interval : Duration) :
    (i.setHealthInterval d).PollsAt interval ↔ i.PollsAt interval := Iff.rfl

theorem PollsAt.unique {i : Instance} {d interval : Duration} (h : i.PollsAt d)
    (h' : i.PollsAt interval) : d = interval := by
  have hp : i.poller ∈ i.pollers := List.mem_cons_self
  exact Option.some.inj ((h _ hp).symm.trans (h' _ hp))

end Instance

/-! ### The manager -/

/-- The errors of `AddServer` and `RemoveServer`. -/
inductive ServerError where
  /-- `server with ID %q already exists` -/
  | alreadyExists (id : String)
  /-- `server URL is required` -/
  | urlRequired
  /-- `server with ID %q not found` -/
  | notFound (id : String)
  deriving DecidableEq, Repr

/-- `server.Manager`. -/
structure Manager where
  instances : GoMap String Instance
  pollInterval : Duration

namespace Manager

/-- `NewManager`. -/
def new (pollInterval : Duration) : Manager := ⟨∅, pollInterval⟩

variable (m : Manager)

/-- `AddServer`. -/
def addServer (cfg : ServerConfig) : Except ServerError Unit × Manager :=
  match m.instances.lookup cfg.id with
  | some _ => (.error (.alreadyExists cfg.id), m)
  | none =>
    if cfg.url = "" then (.error .urlRequired, m)
    else
      let inst := Instance.new cfg m.pollInterval
      (.ok (), { m with instances := m.instances.insert cfg.id inst.start })

/-- `RemoveServer`. -/
def removeServer (id : String) : Except ServerError Unit × Manager :=
  match m.instances.lookup id with
  | none => (.error (.notFound id), m)
  | some _ => (.ok (), { m with instances := m.instances.erase id })

/-- `SetPollInterval`. -/
def setPollInterval (interval : Duration) : Manager where
  pollInterval := interval
  instances := m.instances.filterMap fun inst => some (inst.setHealthInterval interval)

end Manager

/-- An operation of the manager, from taking its lock to letting go of it. -/
inductive Operation where
  | addServer (cfg : ServerConfig)
  | removeServer (id : String)
  | setPollInterval (interval : Duration)

namespace Manager

/-- One operation. -/
def step (m : Manager) : Operation → Option Manager
  | .addServer cfg => some (m.addServer cfg).2
  | .removeServer id => some (m.removeServer id).2
  | .setPollInterval interval => some (m.setPollInterval interval)

/-- `P` holds of every instance. -/
def Every (m : Manager) (P : Instance → Prop) : Prop :=
  ∀ id inst, m.instances.lookup id = some inst → P inst

variable {m : Manager} {P Q : Instance → Prop}

/-- `AddServer` does nothing, or adds an instance that was started with the present interval. -/
theorem addServer_cases (m : Manager) (cfg : ServerConfig) :
    (m.addServer cfg).2 = m ∨
      (m.addServer cfg).2 = { m with
        instances := m.instances.insert cfg.id (Instance.new cfg m.pollInterval).start } := by
  unfold addServer
  split
  · exact Or.inl rfl
  · split_ifs
    · exact Or.inl rfl
    · exact Or.inr rfl

theorem removeServer_cases (m : Manager) (id : String) :
    (m.removeServer id).2 = m ∨
      (m.removeServer id).2 = { m with instances := m.instances.erase id } := by
  unfold removeServer
  split
  · exact Or.inl rfl
  · exact Or.inr rfl

theorem Every.addServer (h : m.Every P) {cfg : ServerConfig}
    (hnew : P (Instance.new cfg m.pollInterval).start) : (m.addServer cfg).2.Every P := by
  rcases m.addServer_cases cfg with heq | heq <;> rw [heq]
  · exact h
  · exact GoMap.forall_insert h hnew

theorem Every.removeServer (h : m.Every P) (id : String) : (m.removeServer id).2.Every P := by
  rcases m.removeServer_cases id with heq | heq <;> rw [heq]
  · exact h
  · exact GoMap.forall_erase h id

theorem lookup_setPollInterval (m : Manager) (interval : Duration) (id : String) :
    (m.setPollInterval interval).instances.lookup id =
      (m.instances.lookup id).map fun inst => inst.setHealthInterval interval := by
  show Finmap.lookup id (GoMap.filterMap _ _) = _
  rw [GoMap.lookup_filterMap]
  cases m.instances.lookup id <;> rfl

theorem every_setPollInterval {interval : Duration} :
    (m.setPollInterval interval).Every P ↔
      m.Every fun inst => P (inst.setHealthInterval interval) := by
  unfold Every
  simp only [lookup_setPollInterval, Option.map_eq_some_iff, forall_exists_index, and_imp]
  constructor
  · intro h id inst hinst
    exact h id _ inst hinst rfl
  · rintro h id _ inst hinst rfl
    exact h id inst hinst

theorem pollInterval_addServer (m : Manager) (cfg : ServerConfig) :
    (m.addServer cfg).2.pollInterval = m.pollInterval := by
  rcases m.addServer_cases cfg with heq | heq <;> rw [heq]

theorem pollInterval_removeServer (m : Manager) (id : String) :
    (m.removeServer id).2.pollInterval = m.pollInterval := by
  rcases m.removeServer_cases id with heq | heq <;> rw [heq]

end Manager

/-- The runs of a manager that was configured with `pollInterval`. -/
def machine (pollInterval : Duration) : Machine Manager Operation where
  init := .new pollInterval
  step := Manager.step

/-! ### The interval in force -/

/-- The interval that the operations set last; the configured one if they set none. -/
def intervalSet (configured : Duration) : List Operation → Duration
  | [] => configured
  | .setPollInterval interval :: ops => intervalSet interval ops
  | .addServer _ :: ops => intervalSet configured ops
  | .removeServer _ :: ops => intervalSet configured ops

/-- The manager's field is the interval in force. -/
theorem pollInterval_of_run {configured : Duration} {m m' : Manager} {ops : List Operation}
    (hrun : (machine configured).run m ops = some m') :
    m'.pollInterval = intervalSet m.pollInterval ops := by
  induction ops generalizing m with
  | nil =>
    obtain rfl := Option.some.inj hrun
    rfl
  | cons op ops ih =>
    obtain ⟨m₁, hstep, hrest⟩ := (machine configured).run_cons_eq_some.mp hrun
    rw [ih hrest]
    cases op with
    | addServer cfg =>
      obtain rfl := Option.some.inj hstep
      rw [Manager.pollInterval_addServer, intervalSet]
    | removeServer id =>
      obtain rfl := Option.some.inj hstep
      rw [Manager.pollInterval_removeServer, intervalSet]
    | setPollInterval interval =>
      obtain rfl := Option.some.inj hstep
      rfl

/-- **The poll interval is uniform** after each operation: every poller of every instance polls at
the interval set last. -/
def UniformAfter (configured : Duration) (ops : List Operation) : Prop :=
  ∀ pre post m, ops = pre ++ post →
    (machine configured).run (machine configured).init pre = some m →
    m.Every fun inst => inst.PollsAt (intervalSet configured pre)

/-- The interval is changed only while there is no instance. -/
def NoServerYet (m : Manager) : Operation → Prop
  | .setPollInterval interval => m.instances = ∅ ∨ interval = m.pollInterval
  | _ => True

/-- The same of a state: every poller polls at the manager's interval. -/
def Uniform (m : Manager) : Prop := m.Every fun inst => inst.PollsAt m.pollInterval

theorem uniformAfter_iff_throughout (configured : Duration) (ops : List Operation) :
    UniformAfter configured ops ↔ (machine configured).Throughout Uniform ops := by
  refine forall₄_congr fun pre post m hops => forall_congr' fun hrun => ?_
  rw [Uniform, pollInterval_of_run hrun]
  rfl

theorem Uniform.step {m m' : Manager} {op : Operation} (h : Uniform m) (hop : NoServerYet m op)
    (hstep : m.step op = some m') : Uniform m' := by
  cases op with
  | addServer cfg =>
    obtain rfl := Option.some.inj hstep
    rw [Uniform, Manager.pollInterval_addServer]
    exact Manager.Every.addServer h (Instance.pollsAt_start_new cfg m.pollInterval)
  | removeServer id =>
    obtain rfl := Option.some.inj hstep
    rw [Uniform, Manager.pollInterval_removeServer]
    exact Manager.Every.removeServer h id
  | setPollInterval interval =>
    obtain rfl := Option.some.inj hstep
    rw [Uniform, Manager.every_setPollInterval]
    rcases hop with hempty | rfl
    · intro id inst hinst
      rw [hempty, Finmap.lookup_empty] at hinst
      cases hinst
    · exact h

/-- A manager with instances that changes its interval leaves their pollers at the old one. -/
theorem Uniform.not_uniform {m m' : Manager} {op : Operation} (h : Uniform m)
    (hop : ¬ NoServerYet m op) (hstep : m.step op = some m') : ¬ Uniform m' := by
  cases op with
  | addServer cfg => exact absurd trivial hop
  | removeServer id => exact absurd trivial hop
  | setPollInterval interval =>
    obtain rfl := Option.some.inj hstep
    obtain ⟨hne, hinterval⟩ := not_or.mp hop
    obtain ⟨id, inst, hinst⟩ : ∃ id inst, m.instances.lookup id = some inst := by
      by_contra hnone
      refine hne (Finmap.ext_lookup fun id => ?_)
      rw [Finmap.lookup_empty, Option.eq_none_iff_forall_ne_some]
      intro inst hinst
      exact hnone ⟨id, inst, hinst⟩
    rw [Uniform, Manager.every_setPollInterval]
    intro h'
    exact hinterval ((h' id inst hinst).unique (h id inst hinst))

/-! ### A change that the pollers do not see -/

/-- A server is added, and the interval is changed from five seconds to ten. -/
def changedRun : List Operation :=
  [.addServer ⟨"s1", "http://localhost:8080"⟩, .setPollInterval (10 * second)]

/-- **The pollers stay at the old interval.** -/
theorem not_uniformAfter_changedRun :
    (∃ m, (machine (5 * second)).run (machine (5 * second)).init changedRun = some m) ∧
      ¬ UniformAfter (5 * second) changedRun := by
  refine ⟨⟨_, rfl⟩, ?_⟩
  intro h
  have hpolls := h changedRun [] _ rfl rfl "s1" _ rfl
  have hstarted := Instance.pollsAt_start_new ⟨"s1", "http://localhost:8080"⟩ (5 * second)
  exact absurd (hpolls.unique hstarted) (by decide)

/-- **Exactly when the poll interval is uniform**: the interval is changed only while there is no
server (or is set to what it is). -/
theorem uniformAfter_iff (configured : Duration) {ops : List Operation} {m : Manager}
    (hrun : (machine configured).run (machine configured).init ops = some m) :
    UniformAfter configured ops ↔ (machine configured).EveryStep NoServerYet ops := by
  rw [uniformAfter_iff_throughout]
  refine Machine.throughout_iff_everyStep (I := Uniform) ?_ ?_ (fun _ h => h) ?_ hrun
  · intro id inst hinst
    rw [show (machine configured).init.instances = ∅ from rfl, Finmap.lookup_empty] at hinst
    cases hinst
  · intro m op m' h hop hstep
    exact h.step hop hstep
  · intro m op m' h hop hstep
    exact h.not_uniform hop hstep

/-- That run changes the interval while there is a server. -/
theorem not_everyStep_changedRun :
    ¬ (machine (5 * second)).EveryStep NoServerYet changedRun := by
  intro h
  have hpolls := (uniformAfter_iff (5 * second) rfl).mpr h changedRun [] _ rfl rfl "s1" _ rfl
  have hstarted := Instance.pollsAt_start_new ⟨"s1", "http://localhost:8080"⟩ (5 * second)
  exact absurd (hpolls.unique hstarted) (by decide)

/-! ### The health checks -/

/-- **The health checks follow the change**: in every state that is reached, each instance checks
its server at the manager's interval. -/
theorem healthInterval_eq {configured : Duration} {m : Manager}
    (hm : (machine configured).Reachable m) :
    m.Every fun inst => inst.healthInterval = m.pollInterval := by
  refine hm.induction (P := fun m => m.Every fun inst => inst.healthInterval = m.pollInterval) ?_ ?_
  · intro id inst hinst
    rw [show (machine configured).init.instances = ∅ from rfl, Finmap.lookup_empty] at hinst
    cases hinst
  · intro m op m' _ h hstep
    cases op with
    | addServer cfg =>
      obtain rfl := Option.some.inj hstep
      rw [Manager.pollInterval_addServer]
      exact h.addServer rfl
    | removeServer id =>
      obtain rfl := Option.some.inj hstep
      rw [Manager.pollInterval_removeServer]
      exact h.removeServer id
    | setPollInterval interval =>
      obtain rfl := Option.some.inj hstep
      rw [Manager.every_setPollInterval]
      intro id inst _
      rfl

end PollInterval

end UnisetPanel
