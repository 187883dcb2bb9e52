import HeadUnit.Proofs.Catalog.Messages
import HeadUnit.Proofs.Catalog.Telemetry
import HeadUnit.Proofs.Message.Parts

/-!
# Bad data stays where it is

A head unit may send members that are malformed or unknown, or leave members out. In every message
and record of the catalog each field has a key of its own, so none of this reaches another field,
at any depth; and in a list an item that cannot be read is skipped without a trace.

## Main definitions

* `Catalog.IsView` — the messages and records of the catalog.

## Main statements

* `Catalog.read_ofBody_eq` — what a field depends on.
-/

namespace HeadUnit

variable {body : Body}

theorem Body.Portable.lawfulAt (h : body.Portable) (v : Version) : body.LawfulAt v := by
  cases body with
  | fixed layout => exact h.lawful v
  | registered registry => exact h.elim

namespace Catalog

/-- A message of the catalog is read as its body says, and a record like the message with its
layout. -/
inductive IsView : Body → Prop where
  | message {m : MessageType} (h : m ∈ onVehicleData :: fixedMessages) : IsView m.body
  | record {name : String} {layout : Layout} (h : .record name layout ∈ records) :
      IsView (.fixed layout)

theorem IsView.lawfulAt (h : IsView body) (v : Version) : body.LawfulAt v := by
  cases h with
  | message h =>
    rcases List.mem_cons.1 h with rfl | h
    · exact valid_vehicleData
    · exact (portable_fixedMessages _ h).lawfulAt v
  | record h => exact lawful_records _ h v

/-- The fields of a view have keys of their own. Of any part of the view, and of the records in it,
what is read is the datum that an object holds where the part stands, null members being missing
ones. So it is the same for two objects that agree there; and if they differ in one member, only
what is below this member may differ. Lists of any type are read item by item: two in a row give
the data of both in a row, and an item that cannot be read takes nothing away from the others. -/
theorem read_ofBody_eq (hbody : IsView body) (v : Version) :
    (body.keys v).Nodup ∧
    (∀ a : Members Json, (Json.object a).WellFormed → ∀ (t : WireType) (part : body.Part t),
      part.read (MessageType.ofBody v (.ofJson (.object a)) body) =
        ((Json.object a).withoutNulls.at? (part.path v)).bind (fun json =>
          t.decode v (.ofJson json)) ∧
      ∀ b : Members Json, (Json.object b).WellFormed →
        ((Json.object a).withoutNulls.at? (part.path v) =
            (Json.object b).withoutNulls.at? (part.path v) →
          part.read (MessageType.ofBody v (.ofJson (.object a)) body) =
            part.read (MessageType.ofBody v (.ofJson (.object b)) body)) ∧
        ∀ key, (part.path v).head? ≠ some key →
          (∀ other, other ≠ key → Members.get? other a = Members.get? other b) →
          part.read (MessageType.ofBody v (.ofJson (.object a)) body) =
            part.read (MessageType.ofBody v (.ofJson (.object b)) body)) ∧
    ∀ (item : WireType) (xs ys : List Value), ∃ before after,
      (WireType.list item).decode v (.list xs) = some before ∧
      (WireType.list item).decode v (.list ys) = some after ∧
      (WireType.list item).decode v (.list (xs ++ ys)) = some (before ++ after) ∧
      ∀ raw, (WireType.list item).decode v (.list (xs ++ raw :: ys)) =
        some (before ++ (item.decode v raw).toList ++ after) := by
  have hlawful := hbody.lawfulAt v
  refine ⟨hlawful.nodup_keys, ?_, WireType.decode_list_append v⟩
  intro a ha t part
  refine ⟨part.read_ofJson hlawful ha, fun b hb => ⟨?_, ?_⟩⟩
  · intro hsame
    exact part.read_ofJson_eq hlawful ha hb hsame
  · intro key hkey hsame
    exact part.read_ofJson_eq_of_ne hlawful ha hb hkey hsame

/-- The high beams read the same from two objects that agree in nothing else, and the lamps do not
change when the engine's speed turns from a number into a text. Of three file types the one that is
unknown is skipped. -/
theorem read_ofBody_eq_highBeams :
    let lamps (low : Json) : Json := .object [("highBeamsOn", .bool true), ("lowBeamsOn", low)]
    let rpm : Json := .integer 900 (by decide) (by decide)
    let a : Members Json := [("headLampStatus", lamps (.string "on")), ("rpm", rpm)]
    let b : Members Json := [("gps", .array []), ("headLampStatus", lamps .null), ("rpm", .null)]
    let c : Members Json := [("headLampStatus", lamps (.string "on")), ("rpm", .string "fast")]
    let read (members : Members Json) : Option headLampStatus.Carrier :=
      Container.get (r := vehicleData) ⟨.v4, .ofJson (.object members)⟩ VehicleData.headLampStatus
    IsView onVehicleData.body ∧ (Json.object a).WellFormed ∧ (Json.object b).WellFormed ∧
      (Json.object c).WellFormed ∧ (read a).bind (·.2.1) = (read b).bind (·.2.1) ∧
      read a = read c ∧
      (WireType.list (.word fileType)).decode .v4
        (.list [.text "GRAPHIC_PNG", .text "HOLOGRAM", .text "GRAPHIC_BMP"]) =
          some [⟨2, by decide⟩, ⟨0, by decide⟩] := by
  intro lamps rpm a b c read
  have hview : IsView onVehicleData.body := .message List.mem_cons_self
  have hbeams : ["highBeamsOn", "lowBeamsOn"].Pairwise (· < ·) := by decide
  have htwo : ["headLampStatus", "rpm"].Pairwise (· < ·) := by decide
  have hthree : ["gps", "headLampStatus", "rpm"].Pairwise (· < ·) := by decide
  have hlamps (low : Json) (hlow : low.WellFormed) : (lamps low).WellFormed :=
    ⟨hbeams, trivial, hlow, trivial⟩
  have ha : (Json.object a).WellFormed := ⟨htwo, hlamps _ trivial, trivial, trivial⟩
  have hb : (Json.object b).WellFormed := ⟨hthree, trivial, hlamps _ trivial, trivial, trivial⟩
  have hc : (Json.object c).WellFormed := ⟨htwo, hlamps _ trivial, trivial, trivial⟩
  have hmem : VehicleData.headLampStatus.entry ∈ vehicleData.entries := by simp [vehicleData]
  let status : onVehicleData.body.Part headLampStatus := .field hmem
  let highBeams : onVehicleData.body.Part .bool := .nested status (.tail .head)
  obtain ⟨-, hread, hlist⟩ := read_ofBody_eq hview .v4
  refine ⟨hview, ha, hb, hc, ((hread a ha _ highBeams).2 b hb).1 rfl, ?_, ?_⟩
  · have hpath : (status.path .v4).head? = some "headLampStatus" := rfl
    refine ((hread a ha _ status).2 c hc).2 "rpm" (by simp [hpath]) ?_
    intro other hne
    simp [a, c, hne.symm]
  · obtain ⟨before, after, hbefore, hafter, -, hskip⟩ := hlist (.word fileType)
      [.text "GRAPHIC_PNG"] [.text "GRAPHIC_BMP"]
    cases hbefore
    cases hafter
    exact hskip (.text "HOLOGRAM")

end Catalog

end HeadUnit
