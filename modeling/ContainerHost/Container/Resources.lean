import ContainerHost.Container.Basic
/-!
# Memory, metrics and health

What a container uses. Looking at the memory remembers the largest size seen, and warns once each
time the size reaches the warning ratio of the limit.

Correspondence: `get_memory_usage`, `metrics`, `collect_metrics`, `health_check` ↔ `observeMemory`,
`metrics`, `collectMetrics`, `health`; `spawn_metrics_task` ↔ `startTicker`, and a tick of its task
↔ `strike`.
-/

namespace ContainerHost

/-- The memory of a container in bytes. -/
structure MemoryUsage where
  used : Nat
  allocated : Nat
  peak : Nat
  limit : Nat
  deriving DecidableEq, Repr, Inhabited

def MemoryUsage.toJson (m : MemoryUsage) : Json.Value := .obj
  [("used", .nat m.used), ("allocated", .nat m.allocated), ("peak", .nat m.peak),
   ("limit", .nat m.limit)]

/-- What a container did and used. -/
structure Metrics where
  memory : MemoryUsage
  uptime : Duration
  calls : Nat
  errors : Nat
  lastCall : Option (Nat × Duration)
  deriving Inhabited

/-- Percent of a second that a span is, a hundred at most. -/
def cpuPercent (d : Duration) : Float :=
  let p := d.nanos.toFloat / 10000000.0
  if p > 100.0 then 100.0 else p

def floatJson (f : Float) : Json.Value := .number (.float f.toBits)

def Metrics.toJson (m : Metrics) : Json.Value := .obj
  [("cpuUsage", floatJson (match m.lastCall with | some (_, d) => cpuPercent d | none => 0.0)),
   ("memoryUsage", m.memory.toJson),
   ("uptimeMs", .nat m.uptime.wholeMillis),
   ("callCount", .nat m.calls),
   ("errorCount", .nat m.errors),
   ("lastActivity", m.lastCall.elim .null fun l => .nat (Duration.mk l.1).wholeMillis)]

/-- What a check of a container's health finds: its figures, or why it has none. -/
inductive HealthDetails where
  | figures (uptime : Duration) (memory limit calls errors : Nat)
  | failed (reason : String)
  deriving Inhabited

/-- The health of a container. -/
structure Health where
  healthy : Bool
  status : Status
  details : HealthDetails
  deriving Inhabited

def Health.toJson (h : Health) : Json.Value := .obj
  [("healthy", .bool h.healthy),
   ("details", .obj <| ("status", .str h.status.name) :: match h.details with
    | .figures uptime memory limit calls errors =>
      [("uptimeMs", .nat uptime.wholeMillis), ("memoryUsage", .nat memory),
       ("memoryLimit", .nat limit), ("callCount", .nat calls), ("errorCount", .nat errors)]
    | .failed reason => [("error", .str reason)])]

namespace Container

/-- A size has reached the warning ratio of a limit. -/
def nearLimit (used limit : Nat) : Bool := used * 100 ≥ limit * Limits.memoryWarningPercent

def observeMemory (c : Container) : Except Error MemoryUsage × Container :=
  match c.guest with
  | none => (.error c.invalidState, c)
  | some g =>
    let used := g.memorySize
    let limit := c.config.maxMemory
    let peak := max c.counters.peak used
    let usage : MemoryUsage := ⟨used, c.config.maxPages * Limits.pageSize, peak, limit⟩
    let c := { c with counters := { c.counters with peak := peak } }
    if nearLimit used limit then
      if c.memoryWarned then (.ok usage, c)
      else (.ok usage, { c with memoryWarned := true }.announce .memoryWarning
        [("used", .nat used), ("limit", .nat limit),
         ("ratio", floatJson (Limits.memoryWarningPercent.toFloat / 100.0))])
    else (.ok usage, { c with memoryWarned := false })

/-- The metrics; a container without a guest uses no memory. -/
def metrics (c : Container) (now : Nat) : Metrics × Container :=
  let (usage, c) := c.observeMemory
  let memory : MemoryUsage :=
    match usage with
    | .ok m => m
    | .error _ => ⟨0, 0, c.counters.peak, c.config.maxMemory⟩
  (⟨memory, c.uptime now, c.counters.calls, c.counters.errors, c.counters.lastCall⟩, c)

def collectMetrics (c : Container) (now : Nat) : Metrics × Container :=
  let (m, c) := c.metrics now
  (m, c.announce .containerMetrics [("metrics", m.toJson)])

def health (c : Container) (now : Nat) : Health × Container :=
  let (usage, c) := c.observeMemory
  match usage with
  | .ok m =>
    (⟨c.status = .running && m.used < m.limit, c.status,
      .figures (c.uptime now) m.used m.limit c.counters.calls c.counters.errors⟩, c)
  | .error e => (⟨false, c.status, .failed e.message⟩, c)

/-! ## Regular reports -/

/-- Lets metrics be collected at regular intervals from now on, instead of any earlier ones. An
interval of nothing never strikes. -/
def startTicker (c : Container) (timer interval : Nat) : Container :=
  { c with ticker := if interval = 0 then none else some ⟨timer + interval, interval⟩ }

/-- The ticker strikes: metrics are collected and the next time is set. -/
def strike (c : Container) (now : Nat) : Container :=
  match c.ticker with
  | none => c
  | some t => { (c.collectMetrics now).2 with ticker := some { t with next := t.next + t.interval } }

end Container
end ContainerHost
