import ContainerHost.Duration
/-!
# Limits and defaults

The sizes, spans and rates that bound a host when its configuration does not. `pagesFor_le` says
that no byte count asks for more pages than a linear memory may have.

Correspondence: the constants of the host, by their names; `pages_for_bytes` ↔ `pagesFor`.
-/

namespace ContainerHost.Limits

/-- How many containers a host keeps. -/
def maxContainers : Nat := 10

/-- How many bytes of module code a host keeps compiled. -/
def cacheSize : Nat := 104857600

/-- The size of a page of linear memory in bytes. -/
def pageSize : Nat := 65536

/-- How much linear memory a container gets. -/
def maxMemory : Nat := 16777216

/-- How many pages a linear memory may have. -/
def maxPages : Nat := 65536

def maxModuleSize : Nat := 268435456

def memoryWarningPercent : Nat := 80

/-- The fuel of a call when no CPU time is configured. -/
def fuel : Nat := 1000000000

/-- The fuel a millisecond of CPU time is worth. -/
def fuelPerMilli : Nat := 100000

/-- The percentage of CPU time at which a container warns. -/
def cpuThresholdPercent : Nat := 80

/-- How long a call may take when no CPU time is configured. -/
def callTimeout : Duration := .millis 5000

/-- How long a request to another host may take. -/
def networkTimeout : Duration := .millis 30000

/-- How long a container rests between stopping and starting again. -/
def restartGrace : Duration := .millis 100

/-- How often a container reports its metrics. -/
def metricsInterval : Duration := .millis 1000

def registryUrl : String := "http://localhost:8080"

def registryPath : String := "containers"

/-- The version label of a container that names none. -/
def version : String := "latest"

/-- The name space of container images. -/
def imagePrefix : String := "wasmhive"

/-- What the names of overriding variables begin with. -/
def envPrefix : String := "WASMHIVE_"

/-- The longest container id in bytes. -/
def maxIdLength : Nat := 128

/-- The longest container name in bytes; a generated id adds a time and a suffix. -/
def maxNameLength : Nat := 96

/-- The largest number of sixty-four bits. -/
def wordMax : Nat := 1 <<< 64 - 1

/-- The pages that hold some bytes, as far as a linear memory may have them. -/
def pagesFor (bytes : Nat) : Nat := min ((bytes + (pageSize - 1)) / pageSize) maxPages

theorem pagesFor_le (bytes : Nat) : pagesFor bytes ≤ maxPages := Nat.min_le_right _ _

end ContainerHost.Limits
