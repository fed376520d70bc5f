import ContainerHost.Container.Resources
/-!
# Calls

A call is let through to the guest when the container runs, its budget of time is not used up, its
memory is within the limit, the policy allows the name, and the guest has the function; the first
of these that fails decides. Calls that return are counted, and so are calls that do not, which are
announced as well. A call that is refused for the status of the container leaves no trace.

Correspondence: `call`, `governed_call`, `check_security` ↔ `call`, `accept`, `checkPolicy`. A call
is cut into `beginCall` and `endCall` where the guest has come to its end.
-/

namespace ContainerHost.Container

open Wasm (Value)

def checkPolicy (c : Container) (function : String) : Except Error Unit :=
  let grants := c.config.grants
  if !c.config.isAllowed function then
    .error (.securityViolation c.id s!"function '{function}' is not in the allowed list")
  else if function.startsWith "fs_" && !grants.fileSystemAccess then
    .error (.securityViolation c.id s!"filesystem access denied for '{function}'")
  else if function.startsWith "net_" && !grants.networkAccess then
    .error (.securityViolation c.id s!"network access denied for '{function}'")
  else .ok ()

/-- The container has lived longer than it may. -/
def outOfTime (c : Container) (now : Nat) : Option Error :=
  match c.config.maxCpuTime with
  | none => none
  | some budget =>
    if (c.uptime now).nanos > budget.nanos then
      some (.timeout s!"CPU time budget of container '{c.id}'" budget)
    else none

/-- The checks before a call enters the guest; the guest that it may enter. -/
def accept (c : Container) (function : String) (now : Nat) :
    Except Error Guest.Instance × Container :=
  match c.outOfTime now with
  | some e => (.error e, c)
  | none =>
    match c.observeMemory with
    | (.error e, c) => (.error e, c)
    | (.ok usage, c) =>
      if usage.used > usage.limit then
        (.error (.memoryLimitExceeded c.id usage.used usage.limit), c)
      else match c.checkPolicy function with
        | .error e => (.error e, c)
        | .ok () =>
          match c.guest with
          | none => (.error c.invalidState, c)
          | some g =>
            if g.hasFunction function then (.ok g, c)
            else (.error (.functionNotFound c.id function), c)

/-- A call took longer than its caller waits. -/
def callTimedOut (c : Container) (function : String) : Error :=
  .timeout s!"call '{function}' in container '{c.id}'" c.config.callTimeout

/-- Whether the guest was interrupted because the caller's time was over. -/
def ranOut (g : Guest.Instance) (function : String) (r : Except Error (List Value)) : Bool :=
  match r with
  | .error e => e = g.interrupted function
  | .ok _ => false

/-- The caller of a guest interrupts it when the caller's time is over. -/
def watch (c : Container) (g : Guest.Instance) : Guest.Watch :=
  .within (g.wiring.machine.pace g.fuelBudget c.config.callTimeout)

/-- Runs the guest for as long as a call may take; what it did, and how long the caller waited. -/
def enterGuest (c : Container) (g : Guest.Instance) (function : String) (args : List Value) :
    Except Error (List Value) × Guest.Instance × Duration :=
  let timeout := c.config.callTimeout
  let (result, g') := g.call function args (c.watch g)
  if ranOut g function result then (.error (c.callTimedOut function), g', timeout)
  else (result, g', .micros 1)

def settleCall (c : Container) (function : String) (result : Except Error (List Value))
    (now : Nat) (took : Duration) : Container :=
  match result with
  | .ok _ =>
    let c := { c with counters :=
      { c.counters with calls := c.counters.calls + 1, lastCall := some (now, took) } }
    if took.nanos * 100 > Limits.cpuThresholdPercent * 1000000000 then
      c.announce .cpuThreshold
        [("function", .str function), ("cpuUsage", floatJson (cpuPercent took)),
         ("threshold", floatJson Limits.cpuThresholdPercent.toFloat)]
    else c
  | .error e =>
    { c with counters := { c.counters with errors := c.counters.errors + 1 } }.announce .containerError
      [("function", .str function), ("error", .str e.message)]

/-- How far a call has come when it is started: to its end, or into the guest, which has come to some
end that the caller will see after `took`. -/
inductive CallProgress where
  | ended (result : Except Error (List Value))
  | entered (function : String) (result : Except Error (List Value)) (took : Duration)
  deriving Inhabited

/-- Starts a call: makes the checks and enters the guest. -/
def beginCall (c : Container) (function : String) (args : List Value) (now : Nat) :
    CallProgress × Container :=
  if c.status ≠ .running then (.ended (.error c.invalidState), c)
  else match c.accept function now with
    | (.error e, c) => (.ended (.error e), c.settleCall function (.error e) now ⟨0⟩)
    | (.ok g, c) =>
      let (result, g, took) := c.enterGuest g function args
      (.entered function result took, { c with guest := some g })

def endCall (c : Container) (p : CallProgress) (now : Nat) :
    Except Error (List Value) × Container :=
  match p with
  | .ended result => (result, c)
  | .entered function result took => (result, c.settleCall function result now took)

def CallProgress.took : CallProgress → Duration
  | .ended _ => ⟨0⟩
  | .entered _ _ took => took

/-- Calls a function of the guest; also says how long it took. -/
def call (c : Container) (function : String) (args : List Value) (now : Nat) :
    Except Error (List Value) × Duration × Container :=
  let (p, c) := c.beginCall function args now
  let (result, c) := c.endCall p (now + p.took.nanos)
  (result, p.took, c)

end ContainerHost.Container
