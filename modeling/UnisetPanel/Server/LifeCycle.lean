/-
  The life of the instances of `server.Manager`: `AddServer`, `RemoveServer`
  and `Shutdown`, with the goroutines that `Instance.Start` starts and
  `Instance.Stop` waits for.

  An instance has five of them: the loops of its four pollers and the health
  check.  Each waits in a `select` for its ticker or for the end of its
  context; where both have come, either may be taken.  `Stop` cancels the
  context of the instance, which the object poller and the health check wait
  for, then stops the other three pollers one after the other, each with a
  context and a wait group of its own, and last waits for the first two.

  `RemoveServer` and `Shutdown` hold the lock of the manager while the
  `Stop`s run; a `Shutdown` that times out lets go of the lock and leaves its
  `Stop`s running.  What a loop does when its ticker fires (a poll, a health
  check) takes none of these locks, and ends at any time.

  `LifeCycle` says three things of every state that is reached.  Safety: a
  goroutine that has not returned belongs to the instance that is registered
  under its id, so the loops of two instances of a server never run beside each
  other, and those of a removed server have returned.  Exactness: with no
  removal under way, exactly the registered instances run, and with all of
  their loops.  Progress: whoever holds the lock can go on, and goes on for a
  number of steps that only the tickers can prolong.  The proof follows one
  `Stop` through its steps: what is behind it has been achieved
  (`StopCall.Sound`), so what it waits for has been told to end.
-/
import UnisetPanel.Calls
import UnisetPanel.Server.PollInterval

namespace UnisetPanel

namespace ServerLife

/-! ### The goroutines of an instance -/

/-- The goroutines that `Start` starts. -/
inductive Goroutine where
  /-- `Poller.Run` -/
  | objects
  /-- `pollLoop` of the three pollers of sensors and registers -/
  | ionc
  | modbus
  | opcua
  /-- `runHealthCheck` -/
  | health
  deriving DecidableEq, Repr

/-- The contexts that they wait for. -/
inductive Context where
  /-- that of the instance -/
  | server
  | ionc
  | modbus
  | opcua
  deriving DecidableEq, Repr

/-- The context of a goroutine. -/
def Goroutine.context : Goroutine → Context
  | .objects | .health => .server
  | .ionc => .ionc
  | .modbus => .modbus
  | .opcua => .opcua

/-- Where a goroutine is. -/
inductive LoopState where
  /-- in its `select` -/
  | waiting
  /-- in `poll` or `checkHealth` -/
  | working
  | returned
  deriving DecidableEq, Repr

/-- An instance, as far as its life goes. -/
structure Instance where
  id : String
  cancelled : Context → Bool
  loops : Goroutine → LoopState

namespace Instance

/-- `NewInstance` and `Start`: `Run` polls before it waits for the first time. -/
def start (id : String) : Instance where
  id := id
  cancelled := fun _ => false
  loops := fun g => if g = .objects then .working else .waiting

variable (inst : Instance)

/-- The ticker fires, and its branch is taken. -/
def tick (g : Goroutine) : Option Instance :=
  if inst.loops g = .waiting then
    some { inst with loops := Function.update inst.loops g .working }
  else none

/-- The poll or the check is over. -/
def worked (g : Goroutine) : Option Instance :=
  if inst.loops g = .working then
    some { inst with loops := Function.update inst.loops g .waiting }
  else none

/-- The context is done, and its branch is taken. -/
def done (g : Goroutine) : Option Instance :=
  if inst.loops g = .waiting ∧ inst.cancelled g.context = true then
    some { inst with loops := Function.update inst.loops g .returned }
  else none

/-- A context is cancelled. -/
def cancel (c : Context) : Instance :=
  { inst with cancelled := Function.update inst.cancelled c true }

end Instance

/-! ### `Stop` -/

/-- A step of `Instance.Stop`. -/
inductive StopStep where
  | cancel (c : Context)
  /-- `wg.Wait` -/
  | wait (gs : List Goroutine)
  deriving DecidableEq, Repr

/-- `Instance.Stop`, the `Stop`s of the pollers included.  (A `UWSGatePoller`, where one was made,
would be stopped before the last wait.) -/
def stopSteps : List StopStep :=
  [.cancel .server, .cancel .ionc, .wait [.ionc], .cancel .modbus, .wait [.modbus],
    .cancel .opcua, .wait [.opcua], .wait [.objects, .health]]

/-- A call of `Stop` for the instance at `inst`, and the steps it still has to take. -/
structure StopCall where
  inst : ℕ
  ahead : List StopStep := stopSteps
  deriving DecidableEq, Repr

/-- The next step of `Stop`. -/
def StopCall.next (call : StopCall) (inst : Instance) : Option (Instance × StopCall) :=
  match call.ahead with
  | [] => none
  | .cancel c :: rest => some (inst.cancel c, { call with ahead := rest })
  | .wait gs :: rest =>
    if ∀ g ∈ gs, inst.loops g = .returned then some (inst, { call with ahead := rest }) else none

/-! ### The manager -/

/-- A method that holds the lock until calls of `Stop` have returned. -/
inductive Removal where
  | removeServer (id : String)
  | shutdown
  deriving DecidableEq, Repr

/-- What the method does to the map in the end. -/
def Removal.apply (m : GoMap String ℕ) : Removal → GoMap String ℕ
  | .removeServer id => m.erase id
  | .shutdown => ∅

/-- The holder of the lock. -/
structure Holder where
  removal : Removal
  calls : List StopCall
  deriving DecidableEq, Repr

/-- `server.Manager` and all instances so far; a registered instance is named by its position. -/
structure Manager where
  created : List Instance
  instances : GoMap String ℕ
  holder : Option Holder
  /-- the calls of `Stop` of `Shutdown`s that have timed out -/
  leftover : List StopCall

/-- One step. -/
inductive Action where
  | addServer (cfg : PollInterval.ServerConfig)
  | removeServer (id : String)
  /-- `range` is the order in which the instances are visited -/
  | shutdown (range : List String)
  /-- the context of `Shutdown` is done -/
  | timeout
  /-- a call of `Stop` of the holder takes its next step -/
  | stop (k : ℕ)
  | leftoverStop (k : ℕ)
  /-- the holder lets go of the lock -/
  | release
  | tick (i : ℕ) (g : Goroutine)
  | worked (i : ℕ) (g : Goroutine)
  | done (i : ℕ) (g : Goroutine)

namespace Manager

/-- `NewManager`. -/
def new : Manager := ⟨[], ∅, none, []⟩

variable (m : Manager)

/-- `AddServer`. -/
def addServer (cfg : PollInterval.ServerConfig) : Except PollInterval.ServerError Manager :=
  match m.instances.lookup cfg.id with
  | some _ => .error (.alreadyExists cfg.id)
  | none =>
    if cfg.url = "" then .error .urlRequired
    else .ok { m with
      created := m.created ++ [.start cfg.id]
      instances := m.instances.insert cfg.id m.created.length }

/-- `RemoveServer`, up to the first step of `Stop`. -/
def removeServer (id : String) : Except PollInterval.ServerError Manager :=
  match m.instances.lookup id with
  | none => .error (.notFound id)
  | some i => .ok { m with holder := some ⟨.removeServer id, [{ inst := i }]⟩ }

/-- `Shutdown`, up to where it waits for the goroutines it has started. -/
def shutdown (range : List String) : Manager :=
  { m with holder := some ⟨.shutdown, range.filterMap fun id =>
      (m.instances.lookup id).map fun i => { inst := i }⟩ }

/-- A goroutine of the instance at `i` takes a step. -/
def move (i : ℕ) (f : Instance → Option Instance) : Option Manager :=
  m.created[i]?.bind fun inst => (f inst).map fun inst' =>
    { m with created := m.created.set i inst' }

/-- The `k`-th of the calls takes its next step: the instances and the calls afterwards. -/
def stopNext (calls : List StopCall) (k : ℕ) : Option (List Instance × List StopCall) :=
  calls[k]?.bind fun call => m.created[call.inst]?.bind fun inst =>
    (call.next inst).map fun r => (m.created.set call.inst r.1, calls.set k r.2)

/-- One step. -/
def step : Action → Option Manager
  | .addServer cfg =>
    if m.holder.isSome then none
    else
      match m.addServer cfg with
      | .error _ => some m
      | .ok m' => some m'
  | .removeServer id =>
    if m.holder.isSome then none
    else
      match m.removeServer id with
      | .error _ => some m
      | .ok m' => some m'
  | .shutdown range =>
    if m.holder.isSome ∨ ¬ m.instances.IsRange range then none else some (m.shutdown range)
  | .timeout => m.holder.bind fun h =>
    if h.removal = .shutdown then
      some { m with holder := none, leftover := m.leftover ++ h.calls }
    else none
  | .stop k => m.holder.bind fun h => (m.stopNext h.calls k).map fun r =>
    { m with created := r.1, holder := some { h with calls := r.2 } }
  | .leftoverStop k => (m.stopNext m.leftover k).map fun r =>
    { m with created := r.1, leftover := r.2 }
  | .release => m.holder.bind fun h =>
    if ∀ call ∈ h.calls, call.ahead = [] then
      some { m with instances := h.removal.apply m.instances, holder := none }
    else none
  | .tick i g => m.move i fun inst => inst.tick g
  | .worked i g => m.move i fun inst => inst.worked g
  | .done i g => m.move i fun inst => inst.done g

end Manager

/-- The runs of the manager and of all goroutines. -/
def machine : Machine Manager Action where
  init := .new
  step := Manager.step

/-! ### What a step does to an instance -/

/-- How many steps a goroutine has ahead until it has returned, if its ticker does not fire. -/
def LoopState.work : LoopState → ℕ
  | .waiting => 1
  | .working => 2
  | .returned => 0

namespace Instance

variable {inst inst' : Instance}

/-- All goroutines have returned. -/
def Ended (inst : Instance) : Prop := ∀ g, inst.loops g = .returned

/-- No goroutine has returned. -/
def Running (inst : Instance) : Prop := ∀ g, inst.loops g ≠ .returned

/-- A goroutine has returned only where its context is done. -/
def Honest (inst : Instance) : Prop :=
  ∀ g, inst.loops g = .returned → inst.cancelled g.context = true

/-- What is done and what has returned stays so. -/
structure Later (inst inst' : Instance) : Prop where
  id : inst'.id = inst.id
  cancelled : ∀ c, inst.cancelled c = true → inst'.cancelled c = true
  returned : ∀ g, inst.loops g = .returned → inst'.loops g = .returned

theorem Later.refl (inst : Instance) : inst.Later inst := ⟨rfl, fun _ h => h, fun _ h => h⟩

theorem Later.ended (h : inst.Later inst') (hend : inst.Ended) : inst'.Ended :=
  fun g => h.returned g (hend g)

/-- How many steps the goroutines have ahead until all have returned, if no ticker fires. -/
def work (inst : Instance) : ℕ :=
  (inst.loops .objects).work + (inst.loops .ionc).work + (inst.loops .modbus).work +
    (inst.loops .opcua).work + (inst.loops .health).work

/-- One goroutine moves. -/
theorem work_update (inst : Instance) (g : Goroutine) (x : LoopState) :
    work { inst with loops := Function.update inst.loops g x } +
      (inst.loops g).work = inst.work + x.work := by
  cases g <;> simp [work, Function.update] <;> omega

/-- What a step of a goroutine leaves. -/
structure Moves (inst inst' : Instance) : Prop where
  later : inst.Later inst'
  honest : inst.Honest → inst'.Honest
  cancelled : inst'.cancelled = inst.cancelled

/-- A goroutine that has not returned goes to `x`. -/
theorem Moves.update {g : Goroutine} {x : LoopState} (hg : inst.loops g ≠ .returned)
    (hx : x = .returned → inst.cancelled g.context = true) :
    inst.Moves { inst with loops := Function.update inst.loops g x } := by
  refine ⟨⟨rfl, fun _ h => h, fun g' hg' => ?_⟩, fun hhonest g' hg' => ?_, rfl⟩
  · have hne : g' ≠ g := fun heq => hg (heq ▸ hg')
    exact (Function.update_of_ne hne x inst.loops).trans hg'
  · by_cases hne : g' = g
    · subst hne
      exact hx ((Function.update_self g' x inst.loops).symm.trans hg')
    · exact hhonest g' ((Function.update_of_ne hne x inst.loops).symm.trans hg')

/-- A goroutine goes from `x`, which is not the end, to `y`. -/
theorem moves_of_loop {g : Goroutine} {x y : LoopState} {P : Prop} [Decidable P]
    (h : (if P then some { inst with loops := Function.update inst.loops g y } else none) =
      some inst')
    (hx : P → inst.loops g = x) (hne : x ≠ .returned)
    (hy : P → y = .returned → inst.cancelled g.context = true) :
    inst.Moves inst' ∧ inst'.work + x.work = inst.work + y.work := by
  obtain ⟨hP, hsome⟩ := Option.ite_none_right_eq_some.mp h
  obtain rfl := Option.some.inj hsome
  obtain rfl := hx hP
  exact ⟨.update hne (hy hP), work_update inst g y⟩

/-- **The ticker**: one step more than before is ahead. -/
theorem moves_of_tick {g : Goroutine} (h : inst.tick g = some inst') :
    inst.Moves inst' ∧ inst'.work = inst.work + 1 := by
  obtain ⟨hmoves, hwork⟩ := moves_of_loop h (fun hg => hg) nofun nofun
  exact ⟨hmoves, Nat.add_right_cancel hwork⟩

theorem moves_of_worked {g : Goroutine} (h : inst.worked g = some inst') :
    inst.Moves inst' ∧ inst'.work + 1 = inst.work := by
  obtain ⟨hmoves, hwork⟩ := moves_of_loop h (fun hg => hg) nofun nofun
  exact ⟨hmoves, Nat.succ.inj hwork⟩

theorem moves_of_done {g : Goroutine} (h : inst.done g = some inst') :
    inst.Moves inst' ∧ inst'.work + 1 = inst.work :=
  moves_of_loop h And.left nofun fun hP _ => hP.2

theorem later_cancel (inst : Instance) (c : Context) : inst.Later (inst.cancel c) := by
  refine ⟨rfl, fun c' hc' => ?_, fun _ h => h⟩
  by_cases hne : c' = c
  · subst hne
    exact Function.update_self c' true inst.cancelled
  · exact (Function.update_of_ne hne true inst.cancelled).trans hc'

end Instance

/-! ### What `Stop` has achieved -/

/-- What a step of `Stop` is for. -/
def StopStep.Holds (inst : Instance) : StopStep → Prop
  | .cancel c => inst.cancelled c = true
  | .wait gs => ∀ g ∈ gs, inst.loops g = .returned

theorem StopStep.Holds.later {inst inst' : Instance} {s : StopStep} (h : s.Holds inst)
    (hlater : inst.Later inst') : s.Holds inst' := by
  cases s with
  | cancel c => exact hlater.cancelled c h
  | wait gs => exact fun g hg => hlater.returned g (h g hg)

/-- The steps that are behind a call hold of the instance. -/
def StopCall.Sound (call : StopCall) (inst : Instance) : Prop :=
  ∃ behind, behind ++ call.ahead = stopSteps ∧ ∀ s ∈ behind, s.Holds inst

namespace StopCall

variable {call call' : StopCall} {inst inst' : Instance}

theorem Sound.later (h : call.Sound inst) (hlater : inst.Later inst') : call.Sound inst' := by
  obtain ⟨behind, hsplit, hall⟩ := h
  exact ⟨behind, hsplit, fun s hs => (hall s hs).later hlater⟩

/-- **When `Stop` returns**, the instance has ended. -/
theorem Sound.ended (h : call.Sound inst) (hahead : call.ahead = []) : inst.Ended := by
  obtain ⟨behind, hsplit, hall⟩ := h
  rw [hahead, List.append_nil] at hsplit
  have hwaited : ∀ gs, .wait gs ∈ stopSteps → ∀ g ∈ gs, inst.loops g = .returned :=
    fun gs hgs => hall (.wait gs) (hsplit ▸ hgs)
  intro g
  cases g with
  | objects => exact hwaited [.objects, .health] (by decide) _ (by decide)
  | ionc => exact hwaited [.ionc] (by decide) _ (by decide)
  | modbus => exact hwaited [.modbus] (by decide) _ (by decide)
  | opcua => exact hwaited [.opcua] (by decide) _ (by decide)
  | health => exact hwaited [.objects, .health] (by decide) _ (by decide)

/-- **What `Stop` waits for** has been told to end. -/
theorem Sound.told (h : call.Sound inst) {gs : List Goroutine} {rest : List StopStep}
    (hahead : call.ahead = .wait gs :: rest) {g : Goroutine} (hg : g ∈ gs) :
    inst.cancelled g.context = true := by
  obtain ⟨behind, hsplit, hall⟩ := h
  rw [hahead] at hsplit
  -- every `Wait` of `Stop` stands behind the cancelling of what it waits for
  have hall' : ∀ n, n < stopSteps.length → ∀ gs rest, stopSteps.drop n = .wait gs :: rest →
      ∀ g ∈ gs, .cancel g.context ∈ stopSteps.take n := by
    intro n hn gs rest hdrop g hg
    have hcases : n = 0 ∨ n = 1 ∨ n = 2 ∨ n = 3 ∨ n = 4 ∨ n = 5 ∨ n = 6 ∨ n = 7 := by
      have hlen : stopSteps.length = 8 := rfl
      omega
    rcases hcases with rfl | rfl | rfl | rfl | rfl | rfl | rfl | rfl <;>
      simp only [stopSteps, List.drop, List.cons.injEq, StopStep.wait.injEq, reduceCtorEq,
        false_and] at hdrop <;> obtain ⟨rfl, -⟩ := hdrop <;> revert g <;> decide
  have hbehind : behind = stopSteps.take behind.length := by rw [← hsplit, List.take_left]
  have hrest : stopSteps.drop behind.length = .wait gs :: rest := by rw [← hsplit, List.drop_left]
  have hlt : behind.length < stopSteps.length := by
    rw [← hsplit, List.length_append, List.length_cons]
    omega
  exact hall (.cancel g.context) (hbehind ▸ hall' _ hlt gs rest hrest g hg)

/-- **A step of `Stop`.** It is achieved, and the instance goes on from where it is; only a context
may be cancelled. -/
theorem next_spec (h : call.next inst = some (inst', call')) :
    call'.inst = call.inst ∧ call'.ahead.length + 1 = call.ahead.length ∧
      inst.Later inst' ∧ inst'.loops = inst.loops ∧ (call.Sound inst → call'.Sound inst') := by
  unfold next at h
  -- the step joins those that are behind
  have hmove : ∀ {s rest}, call.ahead = s :: rest → s.Holds inst' → inst.Later inst' →
      call.Sound inst → Sound { call with ahead := rest } inst' := by
    rintro s rest hahead hs hlater ⟨behind, hsplit, hall⟩
    refine ⟨behind ++ [s], ?_, fun x hx => ?_⟩
    · rw [List.append_assoc, List.singleton_append, ← hahead, hsplit]
    · rcases List.mem_append.mp hx with hx | hx
      · exact (hall x hx).later hlater
      · exact List.mem_singleton.mp hx ▸ hs
  split at h
  · cases h
  · next c rest hahead =>
    obtain ⟨rfl, rfl⟩ := Prod.mk.inj (Option.some.inj h)
    have hlater := inst.later_cancel c
    refine ⟨rfl, by rw [hahead, List.length_cons], hlater, rfl, hmove hahead ?_ hlater⟩
    exact Function.update_self c true inst.cancelled
  · next gs rest hahead =>
    obtain ⟨hreturned, hsome⟩ := Option.ite_none_right_eq_some.mp h
    obtain ⟨rfl, rfl⟩ := Prod.mk.inj (Option.some.inj hsome)
    exact ⟨rfl, by rw [hahead, List.length_cons], .refl inst, rfl,
      hmove hahead hreturned (.refl inst)⟩

end StopCall

/-! ### What a step does to the manager -/

/-- The method takes the entry of `id` out of the map. -/
def Removal.Drops : Removal → String → Prop
  | .removeServer x, id => id = x
  | .shutdown, _ => True

namespace Manager

variable {m m' : Manager}

/-- The calls of `Stop` that the holder waits for. -/
def held (m : Manager) : List StopCall := m.holder.elim [] Holder.calls

/-- All calls of `Stop`. -/
def stopCalls (m : Manager) : List StopCall := m.leftover ++ m.held

theorem stopCalls_of_holder {holder : Holder} (hheld : m.holder = some holder) :
    m.stopCalls = m.leftover ++ holder.calls := by
  show m.leftover ++ m.holder.elim [] Holder.calls = _
  rw [hheld]
  rfl

/-- Some steps ahead of a list of calls. -/
def callsWork : List StopCall → ℕ := Calls.total fun call => call.ahead.length

/-- How many steps are ahead until all calls have returned, and all goroutines that are told to
end, if no ticker fires. -/
def work (m : Manager) : ℕ :=
  Calls.total Instance.work m.created + callsWork m.leftover +
    m.holder.elim 0 fun h => callsWork h.calls + 1

/-- **What the lock, the map and the goroutines have to do with each other.** -/
structure Inv (m : Manager) : Prop where
  /-- the map names instances of its ids -/
  named : ∀ id i, m.instances.lookup id = some i →
    ∃ inst, m.created[i]? = some inst ∧ inst.id = id
  /-- an instance that has not ended is registered -/
  registered : ∀ i inst, m.created[i]? = some inst → ¬ inst.Ended →
    m.instances.lookup inst.id = some i
  honest : ∀ inst ∈ m.created, inst.Honest
  sound : ∀ call ∈ m.stopCalls, ∃ inst, m.created[call.inst]? = some inst ∧ call.Sound inst
  /-- a context of a registered instance is done only where `Stop` has been called -/
  asked : ∀ i inst c, m.created[i]? = some inst → m.instances.lookup inst.id = some i →
    inst.cancelled c = true → i ∈ m.stopCalls.map StopCall.inst
  /-- what the holder is going to drop is what it is stopping -/
  covers : ∀ h, m.holder = some h → ∀ id i, m.instances.lookup id = some i →
    (h.removal.Drops id ↔ i ∈ h.calls.map StopCall.inst)

theorem inv_new : Inv new where
  named id i h := by cases h
  registered i inst h := by cases h
  honest := List.forall_mem_nil _
  sound := List.forall_mem_nil _
  asked i inst c h := by cases h
  covers h hh := by cases hh

/-- **An instance moves on.** The calls stay about the instances they are about, and contexts are
only cancelled by one of them. -/
theorem Inv.set (h : Inv m) {i : ℕ} {inst inst' : Instance} (hi : m.created[i]? = some inst)
    (hlater : inst.Later inst') (hhonest : inst'.Honest)
    (hcancelled : ∀ c, inst'.cancelled c = true →
      inst.cancelled c = true ∨ i ∈ m.stopCalls.map StopCall.inst)
    (hcreated : m'.created = m.created.set i inst') (hinstances : m'.instances = m.instances)
    (hholder : ∀ h', m'.holder = some h' → ∃ h, m.holder = some h ∧ h'.removal = h.removal ∧
      h'.calls.map StopCall.inst = h.calls.map StopCall.inst)
    (hcalls : m'.stopCalls.map StopCall.inst = m.stopCalls.map StopCall.inst)
    (hsound : ∀ call ∈ m'.stopCalls, call ∈ m.stopCalls ∨ call.inst = i ∧ call.Sound inst') :
    Inv m' := by
  have hget := fun j => Calls.getElem?_set_of_getElem? hi inst' j
  -- only the instance at `i` is another, and it is a later one
  have hfrom : ∀ {j : ℕ} {x' : Instance}, m'.created[j]? = some x' →
      ∃ x, m.created[j]? = some x ∧ x.Later x' := by
    intro j x' hx'
    rw [hcreated, hget] at hx'
    split_ifs at hx' with hj
    · subst hj
      obtain rfl := Option.some.inj hx'
      exact ⟨inst, hi, hlater⟩
    · exact ⟨x', hx', .refl x'⟩
  have hto : ∀ {j : ℕ} {x : Instance}, m.created[j]? = some x →
      ∃ x', m'.created[j]? = some x' ∧ x.Later x' := by
    intro j x hx
    rw [hcreated, hget]
    by_cases hj : j = i
    · subst hj
      obtain rfl := Option.some.inj (hi.symm.trans hx)
      exact ⟨inst', if_pos rfl, hlater⟩
    · exact ⟨x, (if_neg hj).trans hx, .refl x⟩
  refine ⟨fun id j hj => ?_, fun j x' hx' hend => ?_, fun x' hx' => ?_, fun call hcall => ?_,
    fun j x' c hx' hlookup hc => ?_, fun h' hh' id j hj => ?_⟩
  · obtain ⟨x, hx, hid⟩ := h.named id j (hinstances ▸ hj)
    obtain ⟨x', hx', hlater'⟩ := hto hx
    exact ⟨x', hx', hlater'.id.trans hid⟩
  · obtain ⟨x, hx, hlater'⟩ := hfrom hx'
    rw [hinstances, hlater'.id]
    exact h.registered j x hx fun hended => hend (hlater'.ended hended)
  · rw [hcreated] at hx'
    rcases List.mem_or_eq_of_mem_set hx' with hx' | rfl
    · exact h.honest x' hx'
    · exact hhonest
  · rcases hsound call hcall with hcall | ⟨rfl, hnow⟩
    · obtain ⟨x, hx, hbefore⟩ := h.sound call hcall
      obtain ⟨x', hx', hlater'⟩ := hto hx
      exact ⟨x', hx', hbefore.later hlater'⟩
    · exact ⟨inst', by rw [hcreated, hget, if_pos rfl], hnow⟩
  · rw [hcalls]
    rw [hinstances] at hlookup
    rw [hcreated, hget] at hx'
    split_ifs at hx' with hji
    · subst hji
      obtain rfl := Option.some.inj hx'
      rcases hcancelled c hc with hc | hmem
      · exact h.asked j inst c hi (hlater.id ▸ hlookup) hc
      · exact hmem
    · exact h.asked j x' c hx' hlookup hc
  · obtain ⟨h₀, hh₀, hremoval, hinsts⟩ := hholder h' hh'
    rw [hinsts, hremoval]
    exact h.covers h₀ hh₀ id j (hinstances ▸ hj)

/-- A goroutine moves. -/
theorem Inv.move (h : Inv m) {i : ℕ} {f : Instance → Option Instance}
    (hf : ∀ inst inst', f inst = some inst' → inst.Moves inst') (hstep : m.move i f = some m') :
    Inv m' := by
  obtain ⟨inst, hi, hstep⟩ := Option.bind_eq_some_iff.mp hstep
  obtain ⟨inst', hinst', rfl⟩ := Option.map_eq_some_iff.mp hstep
  have hmoves := hf inst inst' hinst'
  refine h.set hi hmoves.later (hmoves.honest (h.honest inst (List.mem_of_getElem? hi)))
    (fun c hc => .inl ?_) rfl rfl (fun h' hh' => ⟨h', hh', rfl, rfl⟩) rfl
    fun call hcall => .inl hcall
  rw [hmoves.cancelled] at hc
  exact hc

/-- What a step of one of the calls leaves. -/
structure StopMoves (m : Manager) (calls : List StopCall) (created : List Instance)
    (calls' : List StopCall) : Prop where
  insts : calls'.map StopCall.inst = calls.map StopCall.inst
  callsWork : callsWork calls' + 1 = callsWork calls
  moved : ∃ i inst inst', m.created[i]? = some inst ∧ created = m.created.set i inst' ∧
    i ∈ calls.map StopCall.inst ∧ inst.Later inst' ∧ inst'.loops = inst.loops ∧
    ((∀ call ∈ calls, ∃ x, m.created[call.inst]? = some x ∧ call.Sound x) →
      ∀ call ∈ calls', call ∈ calls ∨ call.inst = i ∧ call.Sound inst')

theorem stopMoves_of_stopNext {calls calls' : List StopCall} {k : ℕ} {created : List Instance}
    (h : m.stopNext calls k = some (created, calls')) : m.StopMoves calls created calls' := by
  obtain ⟨call, hk, h⟩ := Option.bind_eq_some_iff.mp h
  obtain ⟨inst, hi, h⟩ := Option.bind_eq_some_iff.mp h
  obtain ⟨⟨inst', call'⟩, hnext, heq⟩ := Option.map_eq_some_iff.mp h
  simp only [Prod.mk.injEq] at heq
  obtain ⟨rfl, rfl⟩ := heq
  obtain ⟨hinst, hlen, hlater, hloops, hsound⟩ := StopCall.next_spec hnext
  refine ⟨?_, ?_, call.inst, inst, inst', hi, rfl, ?_, hlater, hloops, fun hall c hc => ?_⟩
  · obtain ⟨hlt, rfl⟩ := List.getElem?_eq_some_iff.mp hk
    rw [List.map_set, hinst, ← List.getElem_map StopCall.inst, List.set_getElem_self]
    rw [List.length_map]
    exact hlt
  · have htotal := Calls.total_set hk call' fun c => c.ahead.length
    show Calls.total _ _ + 1 = Calls.total _ _
    omega
  · exact List.mem_map_of_mem (List.mem_of_getElem? hk)
  · rcases List.mem_or_eq_of_mem_set hc with hc | rfl
    · exact .inl hc
    · obtain ⟨x, hx, hx'⟩ := hall call (List.mem_of_getElem? hk)
      obtain rfl := Option.some.inj (hi.symm.trans hx)
      exact .inr ⟨hinst, hsound hx'⟩

/-! ### The methods of the manager -/

theorem lookup_apply {instances : GoMap String ℕ} {removal : Removal} {id : String} {i : ℕ} :
    Finmap.lookup id (removal.apply instances) = some i ↔
      instances.lookup id = some i ∧ ¬ removal.Drops id := by
  cases removal with
  | removeServer x =>
    show Finmap.lookup id (instances.erase x) = some i ↔ _ ∧ ¬ id = x
    rw [GoMap.lookup_erase]
    split_ifs with hid
    · simp [hid]
    · simp [hid]
  | shutdown => simp [Removal.apply, Removal.Drops]

/-- **`AddServer`** registers a new instance, under an id that was free. -/
theorem Inv.addServer (h : Inv m) (hfree : m.holder = none) {cfg : PollInterval.ServerConfig}
    (hadd : m.addServer cfg = .ok m') : Inv m' := by
  unfold Manager.addServer at hadd
  split at hadd
  · cases hadd
  next hnone =>
  split_ifs at hadd
  obtain rfl := Except.ok.inj hadd
  have hget := Calls.getElem?_append_singleton m.created (Instance.start cfg.id)
  have hlookup : ∀ id, Finmap.lookup id (m.instances.insert cfg.id m.created.length) =
      if id = cfg.id then some m.created.length else m.instances.lookup id :=
    fun id => GoMap.lookup_insert m.instances cfg.id id m.created.length
  have hkeep : ∀ {j : ℕ} {x : Instance}, m.created[j]? = some x →
      (m.created ++ [Instance.start cfg.id])[j]? = some x := by
    intro j x hx
    have hlt : j < m.created.length := (List.getElem?_eq_some_iff.mp hx).1
    rw [hget, if_neg (Nat.ne_of_lt hlt), hx]
  refine ⟨fun id j hj => ?_, fun j x hx hend => ?_, fun x hx => ?_, fun call hcall => ?_,
    fun j x c hx hj hc => ?_, fun h' hh' => ?_⟩
  · rw [hlookup] at hj
    split_ifs at hj with hid
    · obtain rfl := Option.some.inj hj
      exact ⟨.start cfg.id, by rw [hget, if_pos rfl], hid.symm⟩
    · obtain ⟨x, hx, hxid⟩ := h.named id j hj
      exact ⟨x, hkeep hx, hxid⟩
  · show Finmap.lookup x.id (m.instances.insert cfg.id m.created.length) = some j
    rw [hget] at hx
    split_ifs at hx with hj
    · obtain rfl := Option.some.inj hx
      have hid : (Instance.start cfg.id).id = cfg.id := rfl
      rw [hlookup, if_pos hid, hj]
    · have hbefore := h.registered j x hx hend
      -- what has not ended is registered, and nothing was under this id
      have hid : x.id ≠ cfg.id := by
        intro hid
        rw [hid, hnone] at hbefore
        cases hbefore
      rw [hlookup, if_neg hid, hbefore]
  · rcases List.mem_append.mp hx with hx | hx
    · exact h.honest x hx
    · obtain rfl := List.mem_singleton.mp hx
      intro g hg
      cases g <;> cases hg
  · obtain ⟨x, hx, hsound⟩ := h.sound call hcall
    exact ⟨x, hkeep hx, hsound⟩
  · rw [hget] at hx
    split_ifs at hx with hjn
    · obtain rfl := Option.some.inj hx
      cases hc
    · have hj : Finmap.lookup x.id (m.instances.insert cfg.id m.created.length) = some j := hj
      rw [hlookup] at hj
      split_ifs at hj with hid
      · exact absurd (Option.some.inj hj).symm hjn
      · exact h.asked j x c hx hj hc
  · exact absurd (hfree ▸ hh' : none = some h') nofun

/-- **The lock is taken** to stop the instances that are to be dropped. -/
theorem Inv.hold (h : Inv m) (hfree : m.holder = none) {removal : Removal} {calls : List StopCall}
    (hcalls : ∀ call ∈ calls, call.ahead = stopSteps ∧
      ∃ id, m.instances.lookup id = some call.inst)
    (hcovers : ∀ id i, m.instances.lookup id = some i →
      (removal.Drops id ↔ i ∈ calls.map StopCall.inst)) :
    Inv { m with holder := some ⟨removal, calls⟩ } := by
  have hbefore : m.stopCalls = m.leftover := by
    show m.leftover ++ m.holder.elim [] Holder.calls = m.leftover
    rw [hfree]
    exact List.append_nil _
  refine ⟨h.named, h.registered, h.honest, fun call hcall => ?_, fun j x c hx hj hc => ?_,
    fun h' hh' => ?_⟩
  · rcases List.mem_append.mp hcall with hcall | hcall
    · exact h.sound call (hbefore ▸ hcall)
    · obtain ⟨hahead, id, hid⟩ := hcalls call hcall
      obtain ⟨x, hx, -⟩ := h.named id call.inst hid
      exact ⟨x, hx, [], hahead, List.forall_mem_nil _⟩
  · have hmem := h.asked j x c hx hj hc
    rw [hbefore] at hmem
    show j ∈ (m.leftover ++ calls).map StopCall.inst
    rw [List.map_append]
    exact List.mem_append_left _ hmem
  · obtain rfl := Option.some.inj hh'
    exact hcovers

/-- **The lock is released**: what is dropped has ended. -/
theorem Inv.release (h : Inv m) {holder : Holder} (hheld : m.holder = some holder)
    (hreturned : ∀ call ∈ holder.calls, call.ahead = []) :
    Inv { m with instances := holder.removal.apply m.instances, holder := none } := by
  have hstop := stopCalls_of_holder hheld
  refine ⟨fun id j hj => ?_, fun j x hx hend => ?_, h.honest, fun call hcall => ?_,
    fun j x c hx hj hc => ?_, nofun⟩
  · exact h.named id j (lookup_apply.mp hj).1
  · have hj := h.registered j x hx hend
    refine lookup_apply.mpr ⟨hj, fun hdrops => ?_⟩
    obtain ⟨call, hcall, rfl⟩ := List.mem_map.mp ((h.covers holder hheld x.id j hj).mp hdrops)
    obtain ⟨x', hx', hsound⟩ := h.sound call (hstop ▸ List.mem_append_right _ hcall)
    obtain rfl := Option.some.inj (hx.symm.trans hx')
    exact hend (hsound.ended (hreturned call hcall))
  · have hcall : call ∈ m.leftover ++ [] := hcall
    rw [List.append_nil] at hcall
    exact h.sound call (hstop ▸ List.mem_append_left _ hcall)
  · obtain ⟨hj, hkept⟩ := lookup_apply.mp hj
    have hmem := h.asked j x c hx hj hc
    rw [hstop, List.map_append] at hmem
    show j ∈ (m.leftover ++ []).map StopCall.inst
    rw [List.append_nil]
    rcases List.mem_append.mp hmem with hmem | hmem
    · exact hmem
    · exact absurd ((h.covers holder hheld x.id j hj).mpr hmem) hkept

/-- Calls take a step, of the holder or left over. -/
theorem Inv.stopNext (h : Inv m) {calls calls' : List StopCall} {created : List Instance}
    (hcalls : ∀ call ∈ calls, call ∈ m.stopCalls) (hmoves : m.StopMoves calls created calls')
    (hcreated : m'.created = created) (hinstances : m'.instances = m.instances)
    (hholder : ∀ h', m'.holder = some h' → ∃ h, m.holder = some h ∧ h'.removal = h.removal ∧
      h'.calls.map StopCall.inst = h.calls.map StopCall.inst)
    (hsame : m'.stopCalls.map StopCall.inst = m.stopCalls.map StopCall.inst)
    (hfrom : ∀ call ∈ m'.stopCalls, call ∈ m.stopCalls ∨ call ∈ calls') : Inv m' := by
  obtain ⟨i, inst, inst', hi, hset, hmem, hlater, hloops, hsound⟩ := hmoves.moved
  have hasked : i ∈ m.stopCalls.map StopCall.inst := by
    obtain ⟨call, hcall, hinst⟩ := List.mem_map.mp hmem
    exact hinst ▸ List.mem_map_of_mem (hcalls call hcall)
  have hhonest : inst'.Honest := by
    intro g hg
    rw [hloops] at hg
    exact hlater.cancelled _ (h.honest inst (List.mem_of_getElem? hi) g hg)
  refine h.set hi hlater hhonest (fun c _ => .inr hasked) (hcreated.trans hset) hinstances hholder
    hsame fun call hcall => ?_
  rcases hfrom call hcall with hcall | hcall
  · exact .inl hcall
  · rcases hsound (fun c hc => h.sound c (hcalls c hc)) call hcall with hcall | hcall
    · exact .inl (hcalls call hcall)
    · exact .inr hcall

/-! ### Steps -/

theorem inv_step (h : Inv m) {a : Action} (hstep : m.step a = some m') : Inv m' := by
  cases a with
  | addServer cfg =>
    obtain ⟨hfree, hstep⟩ := Option.ite_none_left_eq_some.mp hstep
    have hfree : m.holder = none := Option.not_isSome_iff_eq_none.mp hfree
    cases hadd : m.addServer cfg with
    | error e =>
      rw [hadd] at hstep
      exact Option.some.inj hstep ▸ h
    | ok m₁ =>
      rw [hadd] at hstep
      exact Option.some.inj hstep ▸ h.addServer hfree hadd
  | removeServer id =>
    obtain ⟨hfree, hstep⟩ := Option.ite_none_left_eq_some.mp hstep
    have hfree : m.holder = none := Option.not_isSome_iff_eq_none.mp hfree
    unfold removeServer at hstep
    cases hlookup : m.instances.lookup id with
    | none =>
      rw [hlookup] at hstep
      exact Option.some.inj hstep ▸ h
    | some i =>
      rw [hlookup] at hstep
      obtain rfl := Option.some.inj hstep
      refine h.hold hfree (fun call hcall => ?_) fun id' j hj => ?_
      · obtain rfl := List.mem_singleton.mp hcall
        exact ⟨rfl, id, hlookup⟩
      · show id' = id ↔ j ∈ [i]
        rw [List.mem_singleton]
        constructor
        · rintro rfl
          exact Option.some.inj (hj.symm.trans hlookup)
        · rintro rfl
          obtain ⟨x, hx, rfl⟩ := h.named id' j hj
          obtain ⟨x', hx', rfl⟩ := h.named id j hlookup
          exact congrArg Instance.id (Option.some.inj (hx.symm.trans hx'))
  | shutdown range =>
    obtain ⟨hcan, hstep⟩ := Option.ite_none_left_eq_some.mp hstep
    obtain ⟨hfree, hrange⟩ := not_or.mp hcan
    have hfree : m.holder = none := Option.not_isSome_iff_eq_none.mp hfree
    have hrange := not_not.mp hrange
    obtain rfl := Option.some.inj hstep
    refine h.hold hfree (fun call hcall => ?_) fun id j hj => iff_of_true trivial ?_
    · obtain ⟨id, -, hid⟩ := List.mem_filterMap.mp hcall
      obtain ⟨i, hi, rfl⟩ := Option.map_eq_some_iff.mp hid
      exact ⟨rfl, id, hi⟩
    · refine List.mem_map.mpr ⟨{ inst := j }, List.mem_filterMap.mpr ⟨id, ?_, ?_⟩, rfl⟩
      · exact (hrange.mem_iff id).mpr (by rw [hj]; rfl)
      · rw [hj]
        rfl
  | timeout =>
    obtain ⟨holder, hheld, hstep⟩ := Option.bind_eq_some_iff.mp hstep
    obtain ⟨-, hsome⟩ := Option.ite_none_right_eq_some.mp hstep
    obtain rfl := Option.some.inj hsome
    -- the calls of `Stop` are the same, wherever they are kept
    have hsame : stopCalls ⟨m.created, m.instances, none, m.leftover ++ holder.calls⟩ =
        m.stopCalls :=
      (List.append_nil _).trans (stopCalls_of_holder hheld).symm
    exact ⟨h.named, h.registered, h.honest, hsame ▸ h.sound, hsame ▸ h.asked, nofun⟩
  | stop k =>
    obtain ⟨holder, hheld, hstep⟩ := Option.bind_eq_some_iff.mp hstep
    obtain ⟨⟨created, calls⟩, hnext, rfl⟩ := Option.map_eq_some_iff.mp hstep
    have hmoves := stopMoves_of_stopNext hnext
    have hstop := stopCalls_of_holder hheld
    refine h.stopNext (fun call hcall => hstop ▸ List.mem_append_right _ hcall) hmoves rfl rfl
      (fun h' hh' => ?_) ?_ fun call hcall => ?_
    · obtain rfl := Option.some.inj hh'
      exact ⟨holder, hheld, rfl, hmoves.insts⟩
    · show (m.leftover ++ calls).map _ = _
      rw [hstop, List.map_append, List.map_append, hmoves.insts]
    · rcases List.mem_append.mp hcall with hcall | hcall
      · exact .inl (List.mem_append_left _ hcall)
      · exact .inr hcall
  | leftoverStop k =>
    obtain ⟨⟨created, calls⟩, hnext, rfl⟩ := Option.map_eq_some_iff.mp hstep
    have hmoves := stopMoves_of_stopNext hnext
    refine h.stopNext (fun call hcall => List.mem_append_left _ hcall) hmoves rfl rfl
      (fun h' hh' => ⟨h', hh', rfl, rfl⟩) ?_ fun call hcall => ?_
    · show (calls ++ m.held).map _ = (m.leftover ++ m.held).map _
      rw [List.map_append, List.map_append, hmoves.insts]
    · rcases List.mem_append.mp hcall with hcall | hcall
      · exact .inr hcall
      · exact .inl (List.mem_append_right _ hcall)
  | release =>
    obtain ⟨holder, hheld, hstep⟩ := Option.bind_eq_some_iff.mp hstep
    obtain ⟨hreturned, hsome⟩ := Option.ite_none_right_eq_some.mp hstep
    exact Option.some.inj hsome ▸ h.release hheld hreturned
  | tick i g => exact h.move (fun _ _ hf => (Instance.moves_of_tick hf).1) hstep
  | worked i g => exact h.move (fun _ _ hf => (Instance.moves_of_worked hf).1) hstep
  | done i g => exact h.move (fun _ _ hf => (Instance.moves_of_done hf).1) hstep

theorem inv_of_reachable (hm : machine.Reachable m) : Inv m :=
  hm.induction (P := Inv) inv_new fun _ _ _ _ h hstep => inv_step h hstep

end Manager

/-! ### How long it takes -/

namespace Action

/-- A method of the manager is called. -/
def begins : Action → Bool
  | .addServer _ | .removeServer _ | .shutdown _ => true
  | .timeout | .stop _ | .leftoverStop _ | .release | .tick _ _ | .worked _ _ | .done _ _ => false

/-- A ticker fires. -/
def isTick : Action → Bool
  | .tick _ _ => true
  | .addServer _ | .removeServer _ | .shutdown _ | .timeout | .stop _ | .leftoverStop _ | .release
  | .worked _ _ | .done _ _ => false

/-- A step of the holder of the lock, or of a goroutine on its way to the end. -/
def isOwn : Action → Bool
  | .stop _ | .release | .worked _ _ | .done _ _ => true
  | .addServer _ | .removeServer _ | .shutdown _ | .timeout | .leftoverStop _ | .tick _ _ => false

end Action

namespace Manager

variable {m m' : Manager}

theorem work_move {i : ℕ} {f : Instance → Option Instance} {u d : ℕ}
    (hf : ∀ inst inst', f inst = some inst' → inst'.work + d = inst.work + u)
    (hstep : m.move i f = some m') : m'.work + d = m.work + u := by
  obtain ⟨inst, hi, hstep⟩ := Option.bind_eq_some_iff.mp hstep
  obtain ⟨inst', hinst', rfl⟩ := Option.map_eq_some_iff.mp hstep
  have hone := hf inst inst' hinst'
  have htotal := Calls.total_set hi inst' Instance.work
  simp only [work]
  omega

/-- A call of `Stop` leaves the goroutines where they are. -/
theorem StopMoves.total_work {calls calls' : List StopCall} {created : List Instance}
    (h : m.StopMoves calls created calls') :
    Calls.total Instance.work created = Calls.total Instance.work m.created := by
  obtain ⟨i, inst, inst', hi, rfl, -, -, hloops, -⟩ := h.moved
  have hwork : inst'.work = inst.work := by simp only [Instance.work, hloops]
  have htotal := Calls.total_set hi inst' Instance.work
  omega

/-- **Every step but that of a ticker** takes one off the work ahead, where no method is called. -/
theorem work_step {a : Action} (ha : a.begins = false) (hstep : m.step a = some m') :
    m'.work + 1 ≤ m.work + if a.isTick = true then 2 else 0 := by
  cases a with
  | addServer cfg => cases ha
  | removeServer id => cases ha
  | shutdown range => cases ha
  | timeout =>
    obtain ⟨holder, hheld, hstep⟩ := Option.bind_eq_some_iff.mp hstep
    obtain ⟨-, hsome⟩ := Option.ite_none_right_eq_some.mp hstep
    obtain rfl := Option.some.inj hsome
    simp only [work, hheld, callsWork, Calls.total_append, Option.elim]
    omega
  | stop k =>
    obtain ⟨holder, hheld, hstep⟩ := Option.bind_eq_some_iff.mp hstep
    obtain ⟨⟨created, calls⟩, hnext, rfl⟩ := Option.map_eq_some_iff.mp hstep
    have hmoves := stopMoves_of_stopNext hnext
    have htotal := hmoves.total_work
    have hcalls := hmoves.callsWork
    simp only [work, hheld, Option.elim]
    omega
  | leftoverStop k =>
    obtain ⟨⟨created, calls⟩, hnext, rfl⟩ := Option.map_eq_some_iff.mp hstep
    have hmoves := stopMoves_of_stopNext hnext
    have htotal := hmoves.total_work
    have hcalls := hmoves.callsWork
    simp only [work]
    omega
  | release =>
    obtain ⟨holder, hheld, hstep⟩ := Option.bind_eq_some_iff.mp hstep
    obtain ⟨-, hsome⟩ := Option.ite_none_right_eq_some.mp hstep
    obtain rfl := Option.some.inj hsome
    simp only [work, hheld, Option.elim]
    omega
  | tick i g =>
    have hmove := work_move (d := 0) (fun _ _ hf => (Instance.moves_of_tick hf).2) hstep
    show m'.work + 1 ≤ m.work + 2
    omega
  | worked i g =>
    have hmove := work_move (u := 0) (fun _ _ hf => (Instance.moves_of_worked hf).2) hstep
    show m'.work + 1 ≤ m.work + 0
    omega
  | done i g =>
    have hmove := work_move (u := 0) (fun _ _ hf => (Instance.moves_of_done hf).2) hstep
    show m'.work + 1 ≤ m.work + 0
    omega

/-- **The holder of the lock is never stuck**: it can take a step, or a goroutine that it waits for
can. -/
theorem Inv.exists_step (h : Inv m) {holder : Holder} (hheld : m.holder = some holder) :
    ∃ a, a.isOwn = true ∧ (m.step a).isSome = true := by
  by_cases hreturned : ∀ call ∈ holder.calls, call.ahead = []
  · refine ⟨.release, rfl, ?_⟩
    show (m.holder.bind _).isSome = true
    rw [hheld, Option.bind_some, if_pos hreturned]
    rfl
  push Not at hreturned
  obtain ⟨call, hcall, hahead⟩ := hreturned
  have hmem : call ∈ m.stopCalls :=
    stopCalls_of_holder hheld ▸ List.mem_append_right _ hcall
  obtain ⟨inst, hi, hsound⟩ := h.sound call hmem
  obtain ⟨k, hk⟩ := List.mem_iff_getElem?.mp hcall
  -- a step of `Stop` that can be taken is a step of the manager
  have hstop : (call.next inst).isSome = true → (m.step (.stop k)).isSome = true := by
    intro hnext
    show (m.holder.bind _).isSome = true
    rw [hheld, Option.bind_some, Option.isSome_map]
    unfold Manager.stopNext
    rw [hk, Option.bind_some, hi, Option.bind_some, Option.isSome_map]
    exact hnext
  have hmove : ∀ f : Instance → Option Instance, (f inst).isSome = true →
      (m.move call.inst f).isSome = true := by
    intro f hf
    unfold Manager.move
    rw [hi, Option.bind_some, Option.isSome_map]
    exact hf
  cases hsteps : call.ahead with
  | nil => exact absurd hsteps hahead
  | cons s rest =>
    cases s with
    | cancel c => exact ⟨.stop k, rfl, hstop (by simp [StopCall.next, hsteps])⟩
    | wait gs =>
      by_cases hall : ∀ g ∈ gs, inst.loops g = .returned
      · exact ⟨.stop k, rfl, hstop (by simpa [StopCall.next, hsteps] using hall)⟩
      -- a goroutine that is waited for is working, or has been told to end
      push Not at hall
      obtain ⟨g, hg, hloop⟩ := hall
      cases hstate : inst.loops g with
      | waiting =>
        have htold := hsound.told hsteps hg
        exact ⟨.done call.inst g, rfl, hmove _ (by simp [Instance.done, hstate, htold])⟩
      | working => exact ⟨.worked call.inst g, rfl, hmove _ (by simp [Instance.worked, hstate])⟩
      | returned => exact absurd hstate hloop

end Manager

/-- What is promised of a manager. -/
structure LifeCycle (m : Manager) : Prop where
  /-- what has not ended is registered -/
  safe : ∀ i inst, m.created[i]? = some inst → ¬ inst.Ended → m.instances.lookup inst.id = some i
  /-- what is registered runs, with no removal under way and no `Shutdown` that has timed out -/
  exact : m.holder = none → m.leftover = [] → ∀ id i, m.instances.lookup id = some i →
    ∃ inst, m.created[i]? = some inst ∧ inst.id = id ∧ inst.Running
  /-- the lock is never held for ever: some step can be taken, -/
  goesOn : m.holder ≠ none → ∃ a, a.isOwn = true ∧ (m.step a).isSome = true
  /-- and only so many steps until all are taken, unless a ticker fires or a method is called -/
  bounded : ∀ as m', (∀ a ∈ as, Action.begins a = false) → machine.run m as = some m' →
    as.length ≤ m.work + 2 * as.countP Action.isTick

/-- **The life of the instances**, whatever calls and goroutines interleave. -/
theorem lifeCycle_of_reachable {m : Manager} (hm : machine.Reachable m) : LifeCycle m := by
  have h := Manager.inv_of_reachable hm
  refine ⟨h.registered, fun hfree hnone id i hi => ?_, fun hheld => ?_, fun as m' has hrun => ?_⟩
  · obtain ⟨inst, hinst, hid⟩ := h.named id i hi
    refine ⟨inst, hinst, hid, fun g hg => ?_⟩
    -- its context was cancelled by a call of `Stop`, and there is none
    have hdone := h.honest inst (List.mem_of_getElem? hinst) g hg
    have hasked := h.asked i inst _ hinst (hid ▸ hi) hdone
    unfold Manager.stopCalls Manager.held at hasked
    rw [hfree, hnone] at hasked
    cases hasked
  · obtain ⟨holder, hholder⟩ := Option.ne_none_iff_exists'.mp hheld
    exact h.exists_step hholder
  · have hlen := Machine.length_le_of_run (w := Manager.work) (p := Action.isTick)
      (C := fun a => a.begins = false) (fun _ _ _ ha hstep => Manager.work_step ha hstep) has hrun
    omega

/-- A server is added, removed while it is polled, and added again; then all are shut down. -/
def replacedRun : List Action :=
  [.addServer ⟨"s", "http://localhost:8080"⟩, .tick 0 .ionc, .removeServer "s", .stop 0,
    .worked 0 .ionc, .tick 0 .ionc, .worked 0 .ionc, .worked 0 .objects, .done 0 .objects,
    .stop 0, .done 0 .ionc, .stop 0, .stop 0, .done 0 .modbus, .stop 0, .stop 0, .done 0 .opcua,
    .stop 0, .done 0 .health, .stop 0, .release, .addServer ⟨"s", "http://localhost:8080"⟩,
    .shutdown ["s"], .stop 0, .timeout]

theorem lifeCycle_replacedRun :
    ∃ m, machine.run machine.init replacedRun = some m ∧ m.leftover.length = 1 ∧ LifeCycle m := by
  have hsome : ((machine.run machine.init replacedRun).map fun m => m.leftover.length) = some 1 :=
    by decide
  obtain ⟨m, hm, hlen⟩ := Option.map_eq_some_iff.mp hsome
  exact ⟨m, hm, hlen, lifeCycle_of_reachable ⟨replacedRun, hm⟩⟩

end ServerLife

end UnisetPanel
