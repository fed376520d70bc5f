import ContainerHost.Guest.Instance
import ContainerHost.Interpreter.Machine
import ContainerHost.Proofs.Guest.Bytes
import ContainerHost.Proofs.Units
import Mathlib.Algebra.GroupWithZero.Nat
/-!
# Texts in the memory of a guest

A guest hands over a text by a pointer: its units stand there, and how many bytes they take stands
in the four bytes in front of them. The host reads whole units only, and no more than `maxTextBytes`
bytes of them. Whatever stands there and wherever the pointer leads, reading is no reason to fail:
where the bytes are not inside the memory there is no text, and otherwise the text is what the bytes
say.

What is proved: `prefixed_texts`, with what comes of it for the host function that gives up: the
error of the call has the message and the file as the guest has written them.
-/

namespace ContainerHost.Guest

open Interpreter (interpreter)
open Wasm (Memory Value)
open Store
open Text.Utf16 (Says bytesOf says_iff says_text length_toBytes)

/-! ## Numbers -/

theorem littleEndian_toLittleEndian (width : Nat) {n : Nat} (h : n < 256 ^ width) :
    Memory.littleEndian (Memory.toLittleEndian width n) = n := by
  induction width generalizing n with
  | zero =>
    obtain rfl : n = 0 := by simpa using h
    rfl
  | succ width ih =>
    have hrest : n / 256 < 256 ^ width := by
      rw [Nat.div_lt_iff_lt_mul (by decide), ← Nat.pow_succ]
      exact h
    have hbyte : (UInt8.ofNat n).toNat = n % 256 := UInt8.toNat_ofNat'
    change (UInt8.ofNat n).toNat +
      256 * Memory.littleEndian (Memory.toLittleEndian width (n / 256)) = n
    rw [ih hrest, hbyte, Nat.mod_add_div]

/-! ## Reading -/

namespace Store

/-- The number in the four bytes in front of a text. -/
def announced (s : Store) (p : Place) (ptr : Int) : Nat :=
  Memory.littleEndian (s.bytesFrom p (ptr - 4).toNat 4)

/-- How many bytes of a text are read: whole units, and no more than are read at most. -/
def readLength (s : Store) (p : Place) (ptr : Int) : Nat :=
  min (s.announced p ptr) maxTextBytes / 2 * 2

/-- The number in front of a text and the bytes that are read lie inside the memory. -/
def TextInside (s : Store) (p : Place) (ptr : Int) : Prop :=
  4 ≤ ptr ∧ s.Inside p (ptr - 4) 4 ∧ s.Inside p ptr (s.readLength p ptr)

/-- A text that is not too long stands at a pointer: its bytes, and in front of them how many they
are. -/
structure TextAt (s : Store) (p : Place) (ptr : Int) (text : String) : Prop where
  start : 4 ≤ ptr
  short : (Text.Utf16.encode text.toList).length ≤ 2048
  inside : s.Inside p ptr (bytesOf text).length
  header : s.bytesFrom p (ptr - 4).toNat 4 = Memory.toLittleEndian 4 (bytesOf text).length
  bytes : s.bytesFrom p ptr.toNat (bytesOf text).length = bytesOf text

/-- What a host function makes of a pointer to a text: where there is none it is empty. -/
def textOrNone (s : Store) (p : Place) (ptr : Int) : String := (readPrefixedText? p s ptr).getD ""

end Store

variable {p : Place} {s : Store} {ptr : Int} {text : String}

/-- Once the number in front of a text is read, all hangs on reading its bytes. -/
theorem readPrefixedText?_of_header (hstart : 4 ≤ ptr) (hheader : s.Inside p (ptr - 4) 4) :
    readPrefixedText? p s ptr = match readBytes p s ptr (s.readLength p ptr) with
      | .error _ => none
      | .ok bytes => some (String.ofList (Text.Utf16.decode (Text.Utf16.ofBytes bytes))) := by
  obtain ⟨header, hread, rfl⟩ := (exactly_readBytes p s (ptr - 4) 4).comes hheader
  unfold readPrefixedText?
  rw [if_neg (Int.not_lt.mpr hstart), hread]
  rfl

theorem readPrefixedText?_of_inside (h : s.TextInside p ptr) : readPrefixedText? p s ptr =
    some (String.ofList (Text.Utf16.decode
      (Text.Utf16.ofBytes (s.bytesFrom p ptr.toNat (s.readLength p ptr))))) := by
  obtain ⟨hstart, hheader, hbytes⟩ := h
  obtain ⟨bytes, hread, rfl⟩ := (exactly_readBytes p s ptr (s.readLength p ptr)).comes hbytes
  rw [readPrefixedText?_of_header hstart hheader, hread]
  rfl

theorem readPrefixedText?_of_not_inside (h : ¬ s.TextInside p ptr) :
    readPrefixedText? p s ptr = none := by
  by_cases hstart : 4 ≤ ptr
  · by_cases hheader : s.Inside p (ptr - 4) 4
    · have hbytes : ¬ s.Inside p ptr (s.readLength p ptr) :=
        fun hbytes => h ⟨hstart, hheader, hbytes⟩
      obtain ⟨e, hfails⟩ := (exactly_readBytes p s ptr (s.readLength p ptr)).fails hbytes
      rw [readPrefixedText?_of_header hstart hheader, hfails]
    · obtain ⟨e, hfails⟩ := (exactly_readBytes p s (ptr - 4) 4).fails hheader
      unfold readPrefixedText?
      rw [if_neg (Int.not_lt.mpr hstart), hfails]
  · unfold readPrefixedText?
    rw [if_pos (Int.not_le.mp hstart)]

theorem readPrefixedText?_eq_some_iff (p : Place) (s : Store) (ptr : Int) (text : String) :
    readPrefixedText? p s ptr = some text ↔
      s.TextInside p ptr ∧ Says (s.bytesFrom p ptr.toNat (s.readLength p ptr)) text := by
  have heven : (s.bytesFrom p ptr.toNat (s.readLength p ptr)).length % 2 = 0 := by
    rw [length_bytesFrom]
    exact Nat.mul_mod_left _ 2
  by_cases hinside : s.TextInside p ptr
  · rw [readPrefixedText?_of_inside hinside, says_iff heven, Option.some.injEq]
    exact ⟨fun htext => ⟨hinside, htext.symm⟩, fun htext => htext.2.symm⟩
  · rw [readPrefixedText?_of_not_inside hinside]
    exact ⟨fun hnone => (by cases hnone), fun htext => (hinside htext.1).elim⟩

theorem readPrefixedText?_eq_none_iff (p : Place) (s : Store) (ptr : Int) :
    readPrefixedText? p s ptr = none ↔
      ptr < 4 ∨ s.hostMemory? p = none ∨ ¬ s.Inside p (ptr - 4) 4 ∨
        ¬ s.Inside p ptr (s.readLength p ptr) := by
  constructor
  · intro hnone
    have hnot : ¬ s.TextInside p ptr := fun hinside => by
      rw [readPrefixedText?_of_inside hinside] at hnone
      cases hnone
    by_cases hstart : ptr < 4
    · exact .inl hstart
    · by_cases hheader : s.Inside p (ptr - 4) 4
      · exact .inr (.inr (.inr fun hbytes => hnot ⟨by omega, hheader, hbytes⟩))
      · exact .inr (.inr (.inl hheader))
  · rintro (hstart | hmemory | hheader | hbytes)
    · exact readPrefixedText?_of_not_inside fun hinside => by have := hinside.1; omega
    · exact readPrefixedText?_of_not_inside fun hinside =>
        not_inside_of_none hmemory _ _ hinside.2.1
    · exact readPrefixedText?_of_not_inside fun hinside => hheader hinside.2.1
    · exact readPrefixedText?_of_not_inside fun hinside => hbytes hinside.2.2

/-! ## Writing and reading -/

/-- A text that stands at a pointer is read there. -/
theorem readPrefixedText?_of_textAt (h : s.TextAt p ptr text) :
    readPrefixedText? p s ptr = some text := by
  have hlength : (bytesOf text).length = 2 * (Text.Utf16.encode text.toList).length :=
    length_toBytes _
  have hshort := h.short
  have hannounced : s.announced p ptr = (bytesOf text).length := by
    rw [announced, h.header]
    exact littleEndian_toLittleEndian 4 (by omega)
  have hread : s.readLength p ptr = (bytesOf text).length := by
    rw [readLength, hannounced, hlength]
    unfold maxTextBytes
    omega
  obtain ⟨hpointer, hpositive, m, hm, hend⟩ := h.inside
  refine (readPrefixedText?_eq_some_iff p s ptr text).mpr ⟨⟨h.start, ?_, ?_⟩, ?_⟩
  · have hstart := h.start
    exact ⟨by omega, by omega, m, hm, by omega⟩
  · rw [hread]
    exact h.inside
  · rw [hread, h.bytes]
    exact says_text text

theorem textOrNone_of_textAt (h : s.TextAt p ptr text) : s.textOrNone p ptr = text := by
  rw [textOrNone, readPrefixedText?_of_textAt h]
  rfl

/-! ## Giving up -/

/-- What the host function that gives up says, by its arguments. -/
def givenUp (p : Place) (s : Store) (message file line column : UInt32) : Stop :=
  .refused (.aborted (s.textOrNone p (signed32 message)) (s.textOrNone p (signed32 file))
    (signed32 line) (signed32 column))

/-- A guest that calls the function stops there. -/
theorem run_abort (w : Wiring) (s : Store) (message file line column : UInt32)
    (next : List Value → Heap → Execution) (watch : Nat → Signal) (time : Nat) :
    (run w watch time (.paused (.call .abort [.i32 message, .i32 file, .i32 line, .i32 column])
      s.toHeap next) s.toHostState).1 =
        .stopped (givenUp w.place s message file line column) := rfl

/-- Texts that a guest hands over, whatever is in its memory and wherever it points to:
  - there is no text exactly if the pointer leaves no room for the number in front of it, there is
    no memory, or one of the two ranges is not inside;
  - otherwise the text is what the bytes say, and no other;
  - a text that the guest has written there, of no more than 2048 units, is read as it is;
  - the function that reports always comes back, and the one that gives up always says the same,
    with an empty text where there is none;
  - and when a guest comes to call that one with a message and a file that it has written, its call
    fails with these, in their places. -/
theorem prefixed_texts (p : Place) (s : Store) :
    (∀ ptr, readPrefixedText? p s ptr = none ↔
      ptr < 4 ∨ s.hostMemory? p = none ∨ ¬ s.Inside p (ptr - 4) 4 ∨
        ¬ s.Inside p ptr (min (s.announced p ptr) maxTextBytes / 2 * 2 : Nat)) ∧
    (∀ ptr text, readPrefixedText? p s ptr = some text ↔
      (4 ≤ ptr ∧ s.Inside p (ptr - 4) 4 ∧
        s.Inside p ptr (min (s.announced p ptr) maxTextBytes / 2 * 2 : Nat)) ∧
      Says (s.bytesFrom p ptr.toNat (min (s.announced p ptr) maxTextBytes / 2 * 2)) text) ∧
    (∀ ptr text, s.TextAt p ptr text → readPrefixedText? p s ptr = some text) ∧
    (∀ b fileSystemAccess,
      HostFunc.offered? b fileSystemAccess "env" "trace" = some .trace ∧
        HostFunc.offered? b fileSystemAccess "env" "abort" = some .abort) ∧
    (∀ args, HostFunc.trace.call p s args = .ok (s, [])) ∧
    (∀ message file line column : UInt32,
      HostFunc.abort.call p s [.i32 message, .i32 file, .i32 line, .i32 column] =
        .error (givenUp p s message file line column)) ∧
    ∀ (g : Instance) (function : String) (message file line column : UInt32) (said found : String)
      (next : List Value → Heap → Execution) (watch : Nat → Signal) (time : Nat),
      g.wiring.place = p →
      s.TextAt p (signed32 message) said → s.TextAt p (signed32 file) found →
      g.judge function (run g.wiring watch time
          (.paused (.call .abort [.i32 message, .i32 file, .i32 line, .i32 column]) s.toHeap next)
          s.toHostState).1 =
        .error (.executionFailed g.containerId function
          (g.wiring.machine.context function
            (.refused (.aborted said found (signed32 line) (signed32 column))) ++
              s!"abort: {said} at {found}:{signed32 line}:{signed32 column}")) := by
  refine ⟨readPrefixedText?_eq_none_iff p s, readPrefixedText?_eq_some_iff p s,
    fun ptr text => readPrefixedText?_of_textAt, fun b fileSystemAccess => ?_, fun args => rfl,
    fun message file line column => rfl, ?_⟩
  · cases b <;> cases fileSystemAccess <;> decide +kernel
  · rintro g function message file line column said found next watch time rfl hsaid hfound
    rw [run_abort, givenUp, textOrNone_of_textAt hsaid, textOrNone_of_textAt hfound]
    rfl

/-- A page with a message of three units, two of which are a pair, and with the name of a file. -/
def penned : Store :=
  { (default : Store) with
    memories := #[((Memory.zeros 1 none).splice 8
      (Memory.toLittleEndian 4 6 ++ bytesOf "a😀")).splice 32
      (Memory.toLittleEndian 4 8 ++ bytesOf "b.ts")] }

/-- A guest over that page. -/
def quitter : Instance :=
  { (default : Instance) with
    containerId := "unit-1"
    wiring := { (default : Wiring) with
      place := { (default : Place) with hostMemory := some 0 }, machine := interpreter } }

/-- A call of the function that gives up, with these two texts, line 3 and column 7. -/
def quitting : Execution :=
  .paused (.call .abort [.i32 12, .i32 36, .i32 3, .i32 7]) penned.toHeap fun _ h =>
    .ended (.returned []) h

theorem prefixed_texts_penned :
    let p := quitter.wiring.place
    (penned.TextAt p 12 "a😀" ∧ penned.TextAt p 36 "b.ts") ∧
    readPrefixedText? p penned 12 = some "a😀" ∧
    quitter.judge "quit"
        (run quitter.wiring Watch.quiet.signal 0 quitting penned.toHostState).1 =
      .error (.executionFailed "unit-1" "quit" "abort: a😀 at b.ts:3:7") := by
  intro p
  have hmemory : penned.hostMemory? p = some (((Memory.zeros 1 none).splice 8
      (Memory.toLittleEndian 4 6 ++ bytesOf "a😀")).splice 32
      (Memory.toLittleEndian 4 8 ++ bytesOf "b.ts")) := rfl
  have hinside (ptr len : Int) :
      penned.Inside p ptr len ↔ 0 ≤ ptr ∧ 0 ≤ len ∧ ptr + len ≤ 65536 := by
    rw [inside_iff hmemory, Memory.byteSize_splice, Memory.byteSize_splice]
    rfl
  have hmessage : penned.TextAt p 12 "a😀" :=
    ⟨by decide, by decide +kernel, (hinside _ _).mpr (by decide +kernel), by decide +kernel,
      by decide +kernel⟩
  have hfile : penned.TextAt p 36 "b.ts" :=
    ⟨by decide, by decide +kernel, (hinside _ _).mpr (by decide +kernel), by decide +kernel,
      by decide +kernel⟩
  obtain ⟨-, -, hread, -, -, -, hquit⟩ := prefixed_texts p penned
  refine ⟨⟨hmessage, hfile⟩, hread 12 "a😀" hmessage, ?_⟩
  exact (hquit quitter "quit" 12 36 3 7 "a😀" "b.ts" (fun _ h => .ended (.returned []) h)
    Watch.quiet.signal 0 rfl hmessage hfile).trans (by decide +kernel)

end ContainerHost.Guest
