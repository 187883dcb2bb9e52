import HeadUnit.Proofs.WireType.RoundTrip

/-!
# Routes of values

A value that is carried over several versions is read and written at each of them in turn. At its
last stop it is what it would have been without the stops before, and what was carried once is
canonical.

## Main definitions

* `WireType.carry` — a value read and written at one version after another.

## Main statements

* `WireType.carry_append_singleton` — only the last version of a route matters.
-/

namespace HeadUnit.WireType

variable {t : WireType} {raw value : Value}

/-- The value `raw`, as read at `v`, is written and read at the versions of the route in turn. -/
def carry (t : WireType) : Version → List Version → Value → Option Value
  | _, [], raw => some raw
  | v, w :: route, raw => (t.transcode v w raw).bind (t.carry w route)

/-- What was transcoded is finite, whatever it was before. -/
theorem isFinite_transcode {v w : Version} (h : t.transcode v w raw = some value) :
    value.IsFinite := by
  obtain ⟨x, -, rfl⟩ := Option.map_eq_some_iff.1 h
  exact t.isFinite_encode w x

/-- Only the last version of a route matters. -/
theorem carry_append_singleton (h : t.Lawful) (v : Version) (stops : List Version) (w : Version)
    (hraw : raw.IsFinite) : t.carry v (stops ++ [w]) raw = t.transcode v w raw := by
  induction stops generalizing v raw with
  | nil => exact Option.bind_fun_some _
  | cons u rest ih =>
    calc t.carry v (u :: rest ++ [w]) raw
        = (t.transcode v u raw).bind (t.carry u (rest ++ [w])) := rfl
      _ = (t.transcode v u raw).bind (t.transcode u w) :=
        Option.bind_congr fun _ hstop => ih u (isFinite_transcode hstop)
      _ = t.transcode v w raw := transcode_transcode v (h u) hraw

end HeadUnit.WireType
