import ContainerHost.Interpreter.Turn
/-!
# What the interpreter keeps to

`lawful_turn` is what is relied on of a machine, for one turn. `rank` is a measure that every turn
makes smaller (`below_turn`): what fuel pays for at most, with what is left of the running functions.
A branch that goes back and a function that is entered have used up fuel, and everything else comes
closer to the end of a function.
-/

namespace ContainerHost.Interpreter

open Guest
open Wasm (Value NumOp Op Label Func Memory)

/-! ## Laws -/

/-- A turn is within what is relied on. -/
def Turn.Lawful (l : Links) (s : Heap) : Turn → Prop
  | .more _ t => Heap.Works s t
  | .paused what _ t => what.Lawful l s t
  | .ended how t => how.Lawful s t

theorem evalNum_traps {op : NumOp} {args : List Value} {t : Trap} (h : evalNum op args = .error t) :
    t ≠ .outOfFuel ∧ t ≠ .interrupted := by
  unfold evalNum at h
  -- only a division and a conversion fail, and an operation that does not find its operands
  split at h
  case h_4 | h_5 =>
    dsimp only at h
    split at h
    · cases h
      exact ⟨nofun, nofun⟩
    · split at h
      · cases h
        exact ⟨nofun, nofun⟩
      · cases h
  case h_13 =>
    cases h
    exact ⟨nofun, nofun⟩
  all_goals cases h

namespace Turn

variable {l : Links} {s t u : Heap}

theorem Lawful.after {x : Turn} (h : Heap.Works s t) (hx : x.Lawful l t) : x.Lawful l s := by
  cases x with
  | more k u => exact h.trans hx
  | paused what k u => exact ⟨h.trans hx.works, hx.fed, hx.linked⟩
  | ended how u => exact ⟨h.trans hx.works, hx.dry, hx.undisturbed⟩

theorem lawful_trap {t : Trap} (hfuel : t ≠ .outOfFuel) (hdisturbed : t ≠ .interrupted) (s : Heap) :
    (Turn.trap t s).Lawful l s :=
  ⟨.refl s, fun heq => absurd (Ending.trapped.inj heq) hfuel,
    fun heq => hdisturbed (Ending.trapped.inj heq)⟩

theorem lawful_outOfFuel (h : s.fuel = 0) : (Turn.trap .outOfFuel s).Lawful l s :=
  ⟨.refl s, fun _ => h, nofun⟩

end Turn

namespace Stack

variable (k : Stack) (l : Links) (h : Heap)

theorem lawful_unreachable : (Turn.trap .unreachable h).Lawful l h :=
  Turn.lawful_trap (by decide) (by decide) h

theorem lawful_leave : (k.leave h).Lawful l h := by
  unfold leave
  cases k.callers with
  | nil => exact ⟨.refl h, nofun, nofun⟩
  | cons f callers => exact .refl h

theorem lawful_checkpoint : (k.checkpoint h).Lawful l h := by
  unfold checkpoint
  split
  · exact Turn.lawful_outOfFuel ‹_›
  · exact ⟨.refl h, fun _ => Nat.pos_of_ne_zero ‹_›, nofun⟩

theorem lawful_branch (label : Nat) (operands : List Value) :
    (k.branch label operands h).Lawful l h := by
  unfold branch
  split
  · exact lawful_unreachable l h
  · split
    · rename_i hback
      simp only [Bool.and_eq_true, decide_eq_true_eq] at hback
      exact Turn.lawful_outOfFuel hback.2
    · exact .refl h

theorem lawful_invoke {callee : Callee} (hcallee : callee ∈ l.funcs) :
    (k.invoke h callee).Lawful l h := by
  unfold invoke
  cases callee with
  | host f =>
    refine ⟨.refl h, nofun, ?_⟩
    rintro f' args heq
    cases heq
    exact hcallee
  | own f =>
    dsimp only
    split
    · exact Turn.lawful_trap (by decide) (by decide) h
    · exact (lawful_checkpoint _ l _).after (Heap.works_charge h 1)

theorem lawful_loadAt (address len : Nat) (operands : List Value) :
    (k.loadAt l h address len operands).Lawful l h := by
  unfold loadAt
  split
  · exact lawful_unreachable l h
  · split
    · exact Turn.lawful_trap (by decide) (by decide) h
    · exact .refl h

theorem lawful_storeAt (address : Nat) (bytes : List UInt8) (operands : List Value) :
    (k.storeAt l h address bytes operands).Lawful l h := by
  unfold storeAt
  split
  · exact lawful_unreachable l h
  · split
    · exact ⟨Heap.sized_modifyMemory h _ fun m => m.pageCount_splice _ _, Nat.le_refl _⟩
    · exact Turn.lawful_trap (by decide) (by decide) h

/-- One case for each operation with the operands that it takes, in the order of `perform`. -/
theorem lawful_perform (op : Op) : (k.perform l h op).Lawful l h := by
  have hsame : h.Works h := .refl h
  have hnothing : (Turn.trap .unreachable h).Lawful l h := lawful_unreachable l h
  unfold perform
  split
  · exact hnothing
  · exact hsame
  · exact hsame
  -- control: a loop, branches, a return and calls
  · exact lawful_checkpoint _ l h
  · exact lawful_branch k l h _ _
  · split
    · exact hsame
    · exact lawful_branch k l h _ _
  · exact lawful_leave k l h
  · split
    · rename_i hcallee
      exact lawful_invoke k l h (Array.mem_of_getElem? hcallee)
    · exact hnothing
  -- variables and numbers
  · exact hsame
  · exact hsame
  · exact hsame
  · exact hsame
  · exact ⟨Heap.sized_of_memories rfl, Nat.le_refl _⟩
  · exact hsame
  · dsimp only
    split
    · exact hsame
    · rename_i t hfails
      exact Turn.lawful_trap (evalNum_traps hfails).1 (evalNum_traps hfails).2 h
  -- memory
  · exact lawful_loadAt k l h _ _ _
  · exact lawful_storeAt k l h _ _ _
  · split
    · exact hsame
    · exact hnothing
  · split
    · exact ⟨hsame, nofun, nofun⟩
    · exact hnothing
  -- an operation that does not find its operands
  · exact hnothing

theorem lawful_turn : (k.turn l h).Lawful l h := by
  unfold turn
  split
  · exact (lawful_perform k l _ _).after (Heap.works_charge h _)
  · exact lawful_leave k l h

end Stack

/-! ## The measure -/

/-- How far a frame is from its end, with the step that leaves it. -/
def Frame.rest (f : Frame) : Nat := f.func.ops.size - f.pc + 1

namespace Stack

/-- No running function has more operations than this. -/
def Within (k : Stack) (width : Nat) : Prop :=
  ∀ f ∈ k.frame :: k.callers, f.func.ops.size ≤ width

/-- How many turns a stack takes at most, with functions of so many operations. -/
def rank (width : Nat) (k : Stack) (h : Heap) : Nat :=
  h.fuel * (width + 2) + k.frame.rest + k.callers.foldr (·.rest + ·) 0

end Stack

/-- A turn goes on with a smaller rank and functions of no more operations. -/
def Turn.Below (width bound : Nat) : Turn → Prop
  | .more k h => k.Within width ∧ k.rank width h < bound
  | .paused _ k h => k.Within width ∧ k.rank width h < bound
  | .ended _ _ => True

namespace Stack

variable {k : Stack} {h : Heap} {width : Nat}

theorem rank_mono {h' : Heap} (hfuel : h'.fuel ≤ h.fuel) : k.rank width h' ≤ k.rank width h := by
  unfold rank
  have := Nat.mul_le_mul_right (width + 2) hfuel
  omega

theorem within_iff : k.Within width ↔
    k.frame.func.ops.size ≤ width ∧ ∀ f ∈ k.callers, f.func.ops.size ≤ width :=
  List.forall_mem_cons

theorem within_receive (results : List Value) (hk : k.Within width) :
    (k.receive results).Within width := by
  obtain ⟨hframe, hcallers⟩ := within_iff.mp hk
  exact within_iff.mpr ⟨hframe, hcallers⟩

/-- The running function goes on behind the operation that it is at, with anything in its
variables. -/
theorem below_step (hk : k.Within width) (hpc : k.frame.pc < k.frame.func.ops.size) {f : Frame}
    (hfunc : f.func = k.frame.func) (hnext : k.frame.pc < f.pc) {h' : Heap}
    (hfuel : h'.fuel ≤ h.fuel) :
    (⟨f, k.callers⟩ : Stack).Within width ∧ rank width ⟨f, k.callers⟩ h' < k.rank width h := by
  obtain ⟨hframe, hcallers⟩ := within_iff.mp hk
  refine ⟨within_iff.mpr ⟨hfunc ▸ hframe, hcallers⟩, ?_⟩
  have hmono := Nat.mul_le_mul_right (width + 2) hfuel
  simp only [rank, Frame.rest, hfunc]
  omega

theorem below_leave (hk : k.Within width) : (k.leave h).Below width (k.rank width h) := by
  have hwithin := (within_iff.mp hk).2
  unfold leave
  cases hcallers : k.callers with
  | nil => trivial
  | cons f callers =>
    rw [hcallers] at hwithin
    refine ⟨within_iff.mpr (List.forall_mem_cons.mp hwithin), ?_⟩
    -- the frame that is left had one step to go at least
    simp only [rank, Frame.rest, hcallers, List.foldr_cons]
    omega

theorem below_checkpoint (hk : k.Within width) (hpc : k.frame.pc < k.frame.func.ops.size)
    (operands : List Value) {h' : Heap} (hfuel : h'.fuel ≤ h.fuel) :
    ((k.next operands).checkpoint h').Below width (k.rank width h) := by
  unfold checkpoint
  split
  · trivial
  · exact below_step (f := k.frame.next operands) hk hpc rfl (Nat.lt_succ_self _) hfuel

/-- A unit of fuel pays for a whole function, and for the steps that leave it and its caller. -/
theorem fuel_mul_split (width : Nat) {fuel : Nat} (hfuel : 0 < fuel) :
    fuel * (width + 2) = (fuel - 1) * (width + 2) + (width + 2) := by
  rw [← Nat.succ_mul, Nat.succ_eq_add_one, Nat.sub_add_cancel hfuel]

/-- What goes back has used up fuel. -/
theorem below_branch (hk : k.Within width) (hpc : k.frame.pc < k.frame.func.ops.size) (label : Nat)
    (operands : List Value) :
    (k.branch label operands (h.charge 1)).Below width (k.rank width h) := by
  have hcharged : (h.charge 1).fuel ≤ h.fuel := Nat.sub_le _ _
  unfold branch
  split
  · trivial
  · rename_i lb hlabel
    split
    · trivial
    · rename_i hback
      by_cases hforward : k.frame.pc < lb.target
      · exact below_step (f := k.frame.jump lb operands) hk hpc rfl hforward hcharged
      · have hfuel : 0 < h.fuel - 1 := by
          simp only [Bool.and_eq_true, decide_eq_true_eq, not_and] at hback
          exact Nat.pos_of_ne_zero (hback (Nat.le_of_not_lt hforward))
        obtain ⟨hsize, hcallers⟩ := within_iff.mp hk
        have hpaid := fuel_mul_split width (Nat.lt_of_lt_of_le hfuel (Nat.sub_le _ _))
        refine ⟨within_iff.mpr ⟨hsize, hcallers⟩, ?_⟩
        simp only [rank, Frame.rest, Frame.jump, Heap.charge]
        omega

theorem below_invoke (hk : k.Within width) (hpc : k.frame.pc < k.frame.func.ops.size)
    {callee : Callee} (hcallee : ∀ f, callee = .own f → f.ops.size ≤ width) :
    (k.invoke (h.charge 1) callee).Below width (k.rank width h) := by
  have hcharged : (h.charge 1).fuel ≤ h.fuel := Nat.sub_le _ _
  unfold invoke
  cases callee with
  | host f =>
    exact below_step (f := k.frame.next _) hk hpc rfl (Nat.lt_succ_self _) hcharged
  | own f =>
    have hsize := hcallee f rfl
    dsimp only
    split
    · trivial
    · unfold checkpoint
      split
      · trivial
      · rename_i hfed
        simp only [Heap.charge] at hfed
        -- both the call and the entry are charged
        have hcall := fuel_mul_split width (show 0 < h.fuel by omega)
        have hentry := fuel_mul_split width (show 0 < h.fuel - 1 by omega)
        refine ⟨within_iff.mpr ⟨hsize, List.forall_mem_cons.mpr (within_iff.mp hk)⟩, ?_⟩
        simp only [rank, Frame.rest, Frame.enter, Frame.next, Heap.charge, List.foldr_cons]
        omega

theorem below_proceed (hk : k.Within width) (hpc : k.frame.pc < k.frame.func.ops.size)
    (operands : List Value) {h' : Heap} (hfuel : h'.fuel ≤ h.fuel) :
    (k.proceed operands h').Below width (k.rank width h) :=
  below_step (f := k.frame.next operands) hk hpc rfl (Nat.lt_succ_self _) hfuel

theorem below_loadAt {l : Links} (hk : k.Within width) (hpc : k.frame.pc < k.frame.func.ops.size)
    (address len : Nat) (operands : List Value) {h' : Heap} (hfuel : h'.fuel ≤ h.fuel) :
    (k.loadAt l h' address len operands).Below width (k.rank width h) := by
  unfold loadAt
  split
  · trivial
  · split
    · trivial
    · exact below_proceed hk hpc _ hfuel

theorem below_storeAt {l : Links} (hk : k.Within width) (hpc : k.frame.pc < k.frame.func.ops.size)
    (address : Nat) (bytes : List UInt8) (operands : List Value) {h' : Heap}
    (hfuel : h'.fuel ≤ h.fuel) :
    (k.storeAt l h' address bytes operands).Below width (k.rank width h) := by
  unfold storeAt
  split
  · trivial
  · split
    · exact below_proceed hk hpc _ hfuel
    · trivial

/-- The cases are those of `lawful_perform`. -/
theorem below_perform {l : Links} (hk : k.Within width)
    (hpc : k.frame.pc < k.frame.func.ops.size)
    (hlinks : ∀ f, .own f ∈ l.funcs → f.ops.size ≤ width) (op : Op) :
    (k.perform l (h.charge (cost op)) op).Below width (k.rank width h) := by
  have hcharged : (h.charge (cost op)).fuel ≤ h.fuel := Nat.sub_le _ _
  have hproceed (operands : List Value) :
      (k.proceed operands (h.charge (cost op))).Below width (k.rank width h) :=
    below_proceed hk hpc operands hcharged
  have hset {f : Frame} (hfunc : f.func = k.frame.func) (hnext : f.pc = k.frame.pc + 1) :
      Turn.Below width (k.rank width h) (.more ⟨f, k.callers⟩ (h.charge (cost op))) :=
    below_step hk hpc hfunc (by omega) hcharged
  unfold perform
  split
  · trivial
  · exact hproceed _
  · exact hproceed _
  -- control
  · exact below_checkpoint hk hpc _ hcharged
  · exact below_branch hk hpc _ _
  · split
    · exact hproceed _
    · exact below_branch hk hpc _ _
  · exact below_leave hk
  · split
    · rename_i i _ callee hcallee
      refine below_invoke hk hpc fun f hf => hlinks f ?_
      exact hf ▸ Array.mem_of_getElem? hcallee
    · trivial
  -- variables and numbers
  · exact hproceed _
  · exact hset rfl rfl
  · exact hset rfl rfl
  · exact hproceed _
  · exact below_proceed hk hpc _ hcharged
  · exact hproceed _
  · dsimp only
    split
    · exact hproceed _
    · trivial
  -- memory
  · exact below_loadAt hk hpc _ _ _ hcharged
  · exact below_storeAt hk hpc _ _ _ hcharged
  · split
    · exact hproceed _
    · trivial
  · split
    · exact hproceed _
    · trivial
  · trivial

/-- Every turn makes the rank smaller. -/
theorem below_turn {l : Links} (hk : k.Within width)
    (hlinks : ∀ f, .own f ∈ l.funcs → f.ops.size ≤ width) :
    (k.turn l h).Below width (k.rank width h) := by
  unfold turn
  split
  · rename_i op hop
    obtain ⟨hpc, -⟩ := Array.getElem?_eq_some_iff.mp hop
    exact below_perform hk hpc hlinks op
  · exact below_leave hk

end Stack
end ContainerHost.Interpreter
