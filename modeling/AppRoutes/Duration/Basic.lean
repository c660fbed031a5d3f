/-
Spans of time.

A duration is a whole number of nanoseconds whose seconds fit into 64 bits.
-/
namespace AppRoutes

def nanosPerSecond : Nat := 1000000000

structure Duration where
  nanos : Nat
  nanos_lt : nanos < UInt64.size * nanosPerSecond
  deriving DecidableEq

namespace Duration

@[ext]
theorem ext_nanos {a b : Duration} (h : a.nanos = b.nanos) : a = b := by
  cases a
  cases b
  cases h
  rfl

def zero : Duration := ⟨0, by decide⟩

instance : Inhabited Duration := ⟨zero⟩

/-- The duration of a number of nanoseconds, unless it is too long. -/
def ofNanos? (nanos : Nat) : Option Duration :=
  if h : nanos < UInt64.size * nanosPerSecond then some ⟨nanos, h⟩ else none

def ofSeconds? (seconds : Nat) : Option Duration := ofNanos? (seconds * nanosPerSecond)

def add? (a b : Duration) : Option Duration := ofNanos? (a.nanos + b.nanos)

theorem ofNanos?_eq_some_iff {nanos : Nat} {d : Duration} :
    ofNanos? nanos = some d ↔ d.nanos = nanos := by
  unfold ofNanos?
  split
  · rw [Option.some.injEq]
    exact ⟨fun h => h ▸ rfl, fun h => ext_nanos h.symm⟩
  · rename_i hnanos
    exact ⟨nofun, fun h => absurd (h ▸ d.nanos_lt) hnanos⟩

theorem ofNanos?_eq_none_iff {nanos : Nat} :
    ofNanos? nanos = none ↔ UInt64.size * nanosPerSecond ≤ nanos := by
  unfold ofNanos?
  split
  · rename_i hnanos
    exact ⟨nofun, fun h => absurd hnanos (Nat.not_lt.mpr h)⟩
  · rename_i hnanos
    exact ⟨fun _ => Nat.not_lt.mp hnanos, fun _ => rfl⟩

def seconds (d : Duration) : Nat := d.nanos / nanosPerSecond

def subsecondNanos (d : Duration) : Nat := d.nanos % nanosPerSecond

end Duration
end AppRoutes
