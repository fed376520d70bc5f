import ContainerHost.Decimal.Shortest
/-!
# Spans of time

A span is a whole number of nanoseconds. `Duration.text` writes it in the largest of the units s,
ms, µs and ns that it reaches, with as many places as it needs.

Correspondence: `Duration` as it prints itself ↔ `text`; `as_millis` cut to sixty-four bits ↔
`recordedMillis`.
-/

namespace ContainerHost

/-- A span of time. -/
structure Duration where
  nanos : Nat
  deriving DecidableEq, Repr, Inhabited

namespace Duration

def micros (n : Nat) : Duration := ⟨n * 1000⟩

def millis (n : Nat) : Duration := ⟨n * 1000000⟩

def seconds (n : Nat) : Duration := ⟨n * 1000000000⟩

/-- The whole milliseconds of a span. -/
def wholeMillis (d : Duration) : Nat := d.nanos / 1000000

/-- The whole milliseconds of a span, in the sixty-four bits a configuration records. -/
def recordedMillis (d : Duration) : Nat := d.wholeMillis % (1 <<< 64)

/-- The digits of `n / 10 ^ places` after the point, without the zeros at their end. -/
def fraction (n places : Nat) : List Char :=
  let ds := Decimal.digitsOf n
  let padded := List.replicate (places - ds.length) '0' ++ ds
  (padded.reverse.dropWhile (· == '0')).reverse

/-- A span in units of `10 ^ places` nanoseconds. -/
def inUnits (d : Duration) (places : Nat) (unit : String) : String :=
  let frac := fraction (d.nanos % Nat.pow 10 places) places
  toString (d.nanos / Nat.pow 10 places) ++
    (if frac.isEmpty then "" else "." ++ String.ofList frac) ++ unit

/-- The written form of a span. -/
def text (d : Duration) : String :=
  if d.nanos ≥ 1000000000 then d.inUnits 9 "s"
  else if d.nanos ≥ 1000000 then d.inUnits 6 "ms"
  else if d.nanos ≥ 1000 then d.inUnits 3 "µs"
  else d.inUnits 0 "ns"

theorem wholeMillis_millis (n : Nat) : (millis n).wholeMillis = n := by
  simp [millis, wholeMillis]

theorem wholeMillis_mono {a b : Duration} (h : a.nanos ≤ b.nanos) :
    a.wholeMillis ≤ b.wholeMillis := Nat.div_le_div_right h

end Duration
end ContainerHost
