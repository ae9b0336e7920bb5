/-
# JSON forms lose nothing

What a value is written as is told by the value and tells it: the value is read back, from the
JSON value and from its text, and no other value is written as the same text. A form may be read
from many JSON values. What was read once is written in one form, which stands from then on.

An instant outside the calendar has no text that can be read, so that the value of an entry is
read back only if its instant is. Values that were read are.

Key definitions: `Json.Lossless`.
Key theorems: `Json.Lossless.of_reads_back`, `Json.forms_lossless`.
-/
import AccessRegistry.Proofs.Json.Texts
import AccessRegistry.Proofs.Json.Values

namespace AccessRegistry

namespace Json

variable {α : Type} {write : α → Json} {read : Reader α} {legible : α → Prop}

/-- Writing and reading lose nothing of the legible values. -/
structure Lossless (write : α → Json) (read : Reader α) (legible : α → Prop) : Prop where
  /-- A value is read back from what it is written as. -/
  reads_back : ∀ v, legible v → read (write v) = .ok v
  /-- A value is read back from the text that it is written as. -/
  reads_text : ∀ v, legible v → read (ofText (write v).write) = .ok v
  /-- What was read from any JSON value is written in one form, which is read as the same value
  and written as it stands. -/
  settles : ∀ j v, read j = .ok v →
    legible v ∧ read (write v) = .ok v ∧ write <$> read (write v) = .ok (write v)
  /-- Different values are written as different texts. -/
  tells_apart : ∀ v w, legible v → legible w → (write v).write = (write w).write → v = w

/-- A form that writes plain values, reads them back and reads only such values loses nothing. -/
theorem Lossless.of_reads_back (h : ∀ v, legible v → read (write v) = .ok v)
    (hread : ∀ j v, read j = .ok v → legible v)
    (hplain : ∀ v, Plain Text.depthLimit (write v)) : Lossless write read legible where
  reads_back := h
  reads_text v hv := by rw [(hplain v).ofText_write, h v hv]
  settles j v hj := by
    have hv := hread j v hj
    rw [h v hv]
    exact ⟨hv, rfl, rfl⟩
  tells_apart v w hv hw htexts := by
    have hforms : write v = write w := by
      rw [← (hplain v).ofText_write, ← (hplain w).ofText_write, htexts]
    have hread := h v hv
    rw [hforms, h w hw, Except.ok.injEq] at hread
    exact hread.symm

theorem Lossless.of_all (h : ∀ v, read (write v) = .ok v)
    (hplain : ∀ v, Plain Text.depthLimit (write v)) : Lossless write read (fun _ => True) :=
  .of_reads_back (fun v _ => h v) (fun _ _ _ => trivial) hplain

end Json

open Json (Plain Lossless)

section Plain

variable {room : Nat}

theorem AclKey.plain_toJson (key : AclKey) : Plain (room + 1) key.toJson := by
  refine .array fun j hj => ?_
  obtain ⟨id, -, rfl⟩ := List.mem_map.mp hj
  exact .text _

theorem PermissionSet.plain_toJson (s : PermissionSet) : Plain (room + 1) s.toJson := by
  refine .array fun j hj => ?_
  obtain ⟨p, -, rfl⟩ := List.mem_map.mp hj
  exact .text _

theorem Principal.plain_toJson (p : Principal) : Plain (room + 1) p.toJson :=
  .object (by simp [PrincipalKind.toJson, Plain.text])

theorem Entry.Key.plain_toJson (k : Entry.Key) : Plain (room + 2) k.toJson :=
  .object (by simp [members, AclKey.plain_toJson, Principal.plain_toJson])

theorem Entry.Value.plain_toJson (v : Entry.Value) : Plain (room + 2) v.toJson :=
  .object (by simp [members, PermissionSet.plain_toJson, ObjectKind.toJson, Instant.toJson,
    Plain.text])

theorem Registration.plain_toJson (r : Registration) : Plain (room + 2) r.toJson :=
  .object (by simp [AclKey.plain_toJson, Principal.plain_toJson, Plain.text])

theorem Reservation.plain_toJson (r : Reservation) : Plain (room + 2) r.toJson :=
  .object (by simp [AclKey.plain_toJson, ObjectKind.toJson, Identifier.toJson, Plain.text])

theorem Cursor.plain_toJson (c : Cursor) : Plain (room + 1) c.toJson := by
  have h32 : ∀ i : Int32, i.toInt.natAbs < UInt64.size := fun i => by
    have hlo := i.le_toInt
    have hhi := i.toInt_lt
    simp only [UInt64.size]
    omega
  have h64 : ∀ i : Int64, i.toInt.natAbs < UInt64.size := fun i => by
    have hlo := i.le_toInt
    have hhi := i.toInt_lt
    simp only [UInt64.size]
    omega
  exact .object (by simp [Plain.integer, h32, h64])

end Plain

/-! ### Nothing is lost -/

/-- **The written forms of the values that callers and the tables exchange lose nothing.** Of the
values of entries this is said of those that expire at an instant with a date, as all do that were
read. A key is read from the non-empty arrays of identifiers and from nothing else. A set of
permissions is read from the exact names of its members in any order, each any number of times,
and is written with each member once, in the order of their declaration. -/
theorem Json.forms_lossless :
    Lossless Identifier.toJson Identifier.ofJson (fun _ => True) ∧
    Lossless AclKey.toJson AclKey.ofJson (fun _ => True) ∧
    Lossless Principal.toJson Principal.ofJson (fun _ => True) ∧
    Lossless PermissionSet.toJson PermissionSet.ofJson (fun _ => True) ∧
    Lossless Entry.Key.toJson Entry.Key.ofJson (fun _ => True) ∧
    Lossless Entry.Value.toJson Entry.Value.ofJson (·.expiration.Legible) ∧
    Lossless Cursor.toJson Cursor.ofJson (fun _ => True) ∧
    Lossless Reservation.toJson Reservation.ofJson (fun _ => True) ∧
    Lossless Registration.toJson Registration.ofJson (fun _ => True) ∧
    (∀ j key, AclKey.ofJson j = .ok key ↔ ∃ items, j = .array items ∧
      List.Forall₂ (fun item id => Identifier.ofJson item = .ok id) items key.ids) ∧
    (∀ j, (∃ key, AclKey.ofJson j = .ok key) ↔ ∃ items, j = .array items ∧ items ≠ [] ∧
      ∀ item ∈ items, ∃ id, Identifier.ofJson item = .ok id) ∧
    (∀ ts s, PermissionSet.ofJson (Json.ofList .text ts) = .ok s ↔
      ∃ ps : List Permission, ts = ps.map Permission.name ∧ ∀ p, s.contains p ↔ p ∈ ps) ∧
    (∀ s : PermissionSet, s.toJson = Json.ofList .text (s.toList.map Permission.name) ∧
      (s.toList.Pairwise fun p q => p.index < q.index) ∧ ∀ p, p ∈ s.toList ↔ s.contains p) := by
  refine ⟨?_, ?_, ?_, ?_, ?_, ?_, ?_, ?_, ?_, fun _ _ => AclKey.ofJson_eq_ok_iff,
    fun _ => AclKey.exists_ofJson_iff, fun _ _ => PermissionSet.ofJson_texts, fun s =>
      ⟨s.toJson_eq, s.pairwise_toList, fun _ => PermissionSet.mem_toList⟩⟩
  · exact .of_all Identifier.ofJson_toJson fun _ => .text _
  · exact .of_all AclKey.ofJson_toJson AclKey.plain_toJson
  · exact .of_all Principal.ofJson_toJson Principal.plain_toJson
  · exact .of_all PermissionSet.ofJson_toJson PermissionSet.plain_toJson
  · exact .of_all Entry.Key.ofJson_toJson Entry.Key.plain_toJson
  · exact .of_reads_back (fun _ => Entry.Value.ofJson_toJson)
      (fun _ _ => Entry.Value.legible_of_ofJson) Entry.Value.plain_toJson
  · exact .of_all Cursor.ofJson_toJson Cursor.plain_toJson
  · exact .of_all Reservation.ofJson_toJson Reservation.plain_toJson
  · exact .of_all Registration.ofJson_toJson Registration.plain_toJson

/-- A grant without an end is read back from its text. -/
theorem Json.forms_lossless_neverExpires :
    Instant.neverExpires.Legible ∧
      Entry.Value.ofJson (Json.ofText (Entry.Value.toJson ⟨.full, .role, .neverExpires⟩).write) =
        .ok ⟨.full, .role, .neverExpires⟩ := by
  have hlegible : Instant.neverExpires.Legible := by decide
  obtain ⟨-, -, -, -, -, hvalue, -⟩ := forms_lossless
  exact ⟨hlegible, hvalue.reads_text _ hlegible⟩

end AccessRegistry
