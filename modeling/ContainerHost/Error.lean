import ContainerHost.Duration
/-!
# Errors

Everything that can go wrong on a host, as one type of causes. Starting, restarting and reloading
wrap the error of the stage that failed; `Error.root` takes the wrappers off, and `root_idem` says
that none is left. `Error.message` has the wording, `Error.kind` the name of the cause. An operation
that adds counts may also panic, and then it returns nothing at all: `Failure` is either.

Correspondence: `Error` with its messages ↔ `Error.message`; `root`, `is_timeout`, `is_memory`,
`is_security`, `is_not_found` ↔ `root`, `isTimeout`, `isMemoryLimit`, `isSecurityViolation`,
`isNotFound`; a panic ↔ `Failure.panicked`.
-/

namespace ContainerHost

/-- What went wrong. -/
inductive Error where
  | containerNotFound (id : String)
  | functionNotFound (container function : String)
  | startupFailed (name : String) (source : Error)
  | restartFailed (id : String) (source : Error)
  | hotReloadFailed (id : String) (source : Error)
  | invalidState (id state expected : String)
  | invalidContainerId (id reason : String)
  | capacityExceeded (limit : Nat)
  | memoryLimitExceeded (container : String) (used limit : Nat)
  | timeout (operation : String) (limit : Duration)
  | securityViolation (container detail : String)
  | registryDownloadFailed (name reason : String)
  | compilationFailed (name reason : String)
  | moduleTooLarge (size limit : Nat)
  | unsupportedBackend (name : String)
  | noRuntimeAvailable
  | runtimeUnavailable (runtime reason : String)
  | instantiationFailed (container reason : String)
  | engineMismatch (container : String)
  | executionFailed (container function reason : String)
  | deploymentFailed (id reason : String)
  | config (text : String)
  | io (text : String)
  | serialization (text : String)
  | internal (text : String)
  deriving DecidableEq, Repr, Inhabited

namespace Error

def message : Error → String
  | containerNotFound id => s!"container not found: {id}"
  | functionNotFound container function =>
    s!"function '{function}' not found in container '{container}'"
  | startupFailed name source => s!"failed to start container '{name}': {source.message}"
  | restartFailed id source => s!"failed to restart container '{id}': {source.message}"
  | hotReloadFailed id source => s!"failed to hot reload container '{id}': {source.message}"
  | invalidState id state expected =>
    s!"container '{id}' is in state '{state}', expected '{expected}'"
  | invalidContainerId id reason => s!"invalid container ID '{id}': {reason}"
  | capacityExceeded limit => s!"maximum container limit reached ({limit})"
  | memoryLimitExceeded container used limit =>
    s!"memory limit exceeded in container '{container}': {used} > {limit} bytes"
  | timeout operation limit => s!"operation timed out after {limit.text}: {operation}"
  | securityViolation container detail =>
    s!"security violation in container '{container}': {detail}"
  | registryDownloadFailed name reason => s!"failed to download module '{name}': {reason}"
  | compilationFailed name reason => s!"failed to compile module '{name}': {reason}"
  | moduleTooLarge size limit => s!"module exceeds size limit: {size} > {limit} bytes"
  | unsupportedBackend name => s!"unsupported backend: {name}"
  | noRuntimeAvailable => "no runtime backend available on this host"
  | runtimeUnavailable runtime reason => s!"runtime '{runtime}' not available: {reason}"
  | instantiationFailed container reason =>
    s!"failed to instantiate module for container '{container}': {reason}"
  | engineMismatch container =>
    s!"module for container '{container}' was compiled by a different engine"
  | executionFailed container function reason =>
    s!"call to '{function}' failed in container '{container}': {reason}"
  | deploymentFailed id reason => s!"failed to deploy container '{id}': {reason}"
  | config text => s!"invalid configuration: {text}"
  | io text => s!"I/O error: {text}"
  | serialization text => s!"serialization error: {text}"
  | internal text => s!"internal error: {text}"

/-- The name of the cause. -/
def kind : Error → String
  | containerNotFound .. => "ContainerNotFound"
  | functionNotFound .. => "FunctionNotFound"
  | startupFailed .. => "StartupFailed"
  | restartFailed .. => "RestartFailed"
  | hotReloadFailed .. => "HotReloadFailed"
  | invalidState .. => "InvalidState"
  | invalidContainerId .. => "InvalidContainerId"
  | capacityExceeded .. => "CapacityExceeded"
  | memoryLimitExceeded .. => "MemoryLimitExceeded"
  | timeout .. => "Timeout"
  | securityViolation .. => "SecurityViolation"
  | registryDownloadFailed .. => "RegistryDownloadFailed"
  | compilationFailed .. => "CompilationFailed"
  | moduleTooLarge .. => "ModuleTooLarge"
  | unsupportedBackend .. => "UnsupportedBackend"
  | noRuntimeAvailable => "NoRuntimeAvailable"
  | runtimeUnavailable .. => "RuntimeUnavailable"
  | instantiationFailed .. => "InstantiationFailed"
  | engineMismatch .. => "EngineMismatch"
  | executionFailed .. => "ExecutionFailed"
  | deploymentFailed .. => "DeploymentFailed"
  | config .. => "Config"
  | io .. => "Io"
  | serialization .. => "Serialization"
  | internal .. => "Internal"

/-- The error that a wrapper holds. -/
def source? : Error → Option Error
  | startupFailed _ source => some source
  | restartFailed _ source => some source
  | hotReloadFailed _ source => some source
  | _ => none

/-- The text behind an error: the wording of what a wrapper holds, or what the system reported. -/
def sourceText? : Error → Option String
  | io text => some text
  | e => e.source?.map message

/-- The error under all wrappers. -/
def root : Error → Error
  | startupFailed _ source => source.root
  | restartFailed _ source => source.root
  | hotReloadFailed _ source => source.root
  | e => e

def isTimeout (e : Error) : Bool := match e.root with | timeout .. => true | _ => false

/-- A container used more memory than it may. -/
def isMemoryLimit (e : Error) : Bool :=
  match e.root with | memoryLimitExceeded .. => true | _ => false

def isSecurityViolation (e : Error) : Bool :=
  match e.root with | securityViolation .. => true | _ => false

def isNotFound (e : Error) : Bool :=
  match e.root with
  | containerNotFound .. => true
  | functionNotFound .. => true
  | _ => false

@[simp] theorem root_startupFailed (n : String) (e : Error) : (startupFailed n e).root = e.root := rfl
@[simp] theorem root_restartFailed (n : String) (e : Error) : (restartFailed n e).root = e.root := rfl
@[simp] theorem root_hotReloadFailed (n : String) (e : Error) :
    (hotReloadFailed n e).root = e.root := rfl

/-- No wrapper is left at the root. -/
theorem root_idem (e : Error) : e.root.root = e.root := by
  induction e <;> simp_all [root]

end Error

/-- Why an operation has no result: it returned an error, or it panicked. -/
inductive Failure where
  | returned (e : Error)
  | panicked (message : String)
  deriving DecidableEq, Repr, Inhabited

end ContainerHost
