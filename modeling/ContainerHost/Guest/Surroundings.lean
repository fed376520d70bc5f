/-!
# Surroundings

What a guest finds when it is made: the directories that exist, the time on the wall, and what
chance has for it. A host may be short of something that a guest needs, and then it is not made.

Correspondence: what `HostState::new`, `preopen_dir` and `Instant::now` find ↔ `Surroundings`.
-/

namespace ContainerHost

/-- The world outside. What is said of a container of some id at some time may be anything: the
number that its chance values begin with, and the reason why there is no guest for it, if the host
is short of something then. -/
structure Outside where
  dirs : List String
  chance : (id : String) → (now : Nat) → UInt64
  shortage : (id : String) → (now : Nat) → Option String
  deriving Inhabited

/-- The world at a time. -/
structure Surroundings where
  outside : Outside
  now : Nat
  deriving Inhabited

/-- A world with some directories, in which chance is always the same and nothing is short. -/
def Outside.ofDirs (dirs : List String) : Outside :=
  ⟨dirs, fun _ _ => 88172645463325252, fun _ _ => none⟩

end ContainerHost
