/-
# Values are read back from their JSON forms

An identifier is read back from its text, and a value of several parts is read back because each
part is. An entry's value is read back if its instant is: not every instant lies in the calendar.

Key definitions: `Instant.Legible`.
Key theorems: `AclKey.ofJson_eq_ok_iff`, `AclKey.exists_ofJson_iff`,
`PermissionSet.ofJson_texts`, and `ofJson_toJson` of each type.
-/
import AccessRegistry.Json.Values
import AccessRegistry.Proofs.Instants.Texts
import AccessRegistry.Proofs.Json.Forms
import AccessRegistry.Proofs.Spellings

namespace AccessRegistry

open Json (Reader Form expect)
open Json.Form (reads_required)

namespace Identifier

/-- Five groups of digits are told apart by the hyphens between them. -/
theorem dehyphenate?_hyphenate {ds : List Char} (h : ds.length = 32) :
    dehyphenate? (hyphenate ds) = some ds := by
  have hlength : (hyphenate ds).length = 36 := by
    simp [hyphenate, h]
  have hjoin : ∀ m n, (ds.drop m).take n ++ ds.drop (m + n) = ds.drop m := fun m n => by
    rw [← List.drop_drop, List.take_append_drop]
  have hgroups : (hyphenate ds).take 8 ++ ((hyphenate ds).drop 9).take 4 ++
      ((hyphenate ds).drop 14).take 4 ++ ((hyphenate ds).drop 19).take 4 ++
      (hyphenate ds).drop 24 = ds := by
    have hjoined : ds.take 8 ++ ((ds.drop 8).take 4 ++ ((ds.drop 12).take 4 ++
        ((ds.drop 16).take 4 ++ ds.drop 20))) = ds := by
      rw [hjoin 16 4, hjoin 12 4, hjoin 8 4, List.take_append_drop]
    simpa [hyphenate, h, List.drop_append, List.drop_take] using hjoined
  unfold dehyphenate?
  dsimp only
  rw [hgroups, if_pos ⟨hlength, rfl⟩]

theorem ofText?_toText (id : Identifier) : ofText? id.toText = some id := by
  have hlength : (Hex.numeral id.value 32).length = 32 := Hex.numeral_length _ _
  have hchars : id.chars.length = 36 := by simp [chars, hyphenate, hlength]
  have hvalue : Hex.value? (Hex.numeral id.value 32) = some id.value := by
    rw [Hex.value?_numeral]
    exact congrArg some (Nat.mod_eq_of_lt id.value_lt)
  rw [ofText?, toText, String.toList_ofList, ofChars?, hchars]
  simp only [Nat.reduceEqDiff, if_false, if_true]
  rw [ofHyphenated?, chars, dehyphenate?_hyphenate hlength, Option.bind_some, ofDigits?,
    if_pos hlength, hvalue, Option.bind_some, dif_pos id.value_lt]

theorem ofJson_toJson (id : Identifier) : ofJson id.toJson = .ok id :=
  Reader.written_eq_ok_iff.mpr ⟨_, rfl, ofText?_toText id⟩

end Identifier

/-! ### Keys -/

namespace AclKey

theorem ofIds?_eq_some_iff {ids : List Identifier} {key : AclKey} :
    ofIds? ids = some key ↔ ids = key.ids := by
  unfold ofIds?
  split
  · rw [Option.some.injEq, AclKey.ext_iff]
  · rename_i h
    simp only [reduceCtorEq, false_iff]
    rintro rfl
    exact h key.ids_ne_nil

/-- A key is read from an array that has its identifiers as items, one by one. -/
theorem ofJson_eq_ok_iff {j : Json} {key : AclKey} :
    ofJson j = .ok key ↔
      ∃ items, j = .array items ∧
        List.Forall₂ (fun item id => Identifier.ofJson item = .ok id) items key.ids := by
  simp only [ofJson, bind_eq_ok_iff, Reader.list_eq_ok_iff, Json.expect_eq_ok_iff,
    ofIds?_eq_some_iff, exists_eq_right]

theorem ofJson_toJson (key : AclKey) : ofJson key.toJson = .ok key := by
  have hids : Reader.list Identifier.ofJson key.toJson = .ok key.ids :=
    Reader.list_ofList fun id _ => id.ofJson_toJson
  exact ofJson_eq_ok_iff.mpr (Reader.list_eq_ok_iff.mp hids)

/-- An array is a key just if it has items, and each of them is an identifier. -/
theorem exists_ofJson_iff {j : Json} :
    (∃ key, ofJson j = .ok key) ↔
      ∃ items, j = .array items ∧ items ≠ [] ∧
        ∀ item ∈ items, ∃ id, Identifier.ofJson item = .ok id := by
  simp only [← exists_forall₂_iff, ofJson_eq_ok_iff]
  constructor
  · rintro ⟨key, items, rfl, hids⟩
    refine ⟨items, rfl, ?_, key.ids, hids⟩
    rintro rfl
    exact key.ids_ne_nil (List.forall₂_nil_left_iff.mp hids)
  · rintro ⟨items, rfl, hne, ids, hids⟩
    have hids_ne : ids ≠ [] := by
      rintro rfl
      exact hne (List.forall₂_nil_right_iff.mp hids)
    exact ⟨⟨ids, hids_ne⟩, items, rfl, hids⟩

end AclKey

theorem Permission.ofExactName?_eq_some_iff {s : String} {p : Permission} :
    ofExactName? s = some p ↔ s = p.name := by
  rw [@eq_comm _ s]
  exact find?_key_eq_some_iff fun p => by cases p <;> rfl

theorem Permission.ofJson_text {s : String} {p : Permission} :
    ofJson (.text s) = .ok p ↔ s = p.name :=
  Json.expect_eq_ok_iff.trans ofExactName?_eq_some_iff

theorem PrincipalKind.ofJson_toJson (k : PrincipalKind) : ofJson k.toJson = .ok k :=
  Reader.name_text (by cases k <;> decide)

theorem ObjectKind.ofJson_toJson (k : ObjectKind) : ofJson k.toJson = .ok k :=
  Reader.name_text (by cases k <;> decide)

namespace PermissionSet

theorem contains_foldl_insert (ps : List Permission) (s : PermissionSet) (p : Permission) :
    (ps.foldl insert s).contains p = (s.contains p || decide (p ∈ ps)) := by
  induction ps generalizing s with
  | nil => simp
  | cons q ps ih => simp [ih, contains_insert, Bool.or_assoc, eq_comm]

theorem contains_ofList (ps : List Permission) (p : Permission) :
    (ofList ps).contains p = decide (p ∈ ps) := by
  rw [ofList, contains_foldl_insert, contains_empty, Bool.false_or]

theorem mem_toList {s : PermissionSet} {p : Permission} : p ∈ s.toList ↔ s.contains p := by
  rw [toList, List.mem_filter, and_iff_right p.mem_all]

theorem ofList_eq_iff {ps : List Permission} {s : PermissionSet} :
    ofList ps = s ↔ ∀ p, s.contains p ↔ p ∈ ps := by
  constructor
  · rintro rfl p
    rw [contains_ofList, decide_eq_true_iff]
  · exact fun h => ext_contains fun p => by rw [Bool.eq_iff_iff, contains_ofList,
      decide_eq_true_iff, h p]

/-- The members of a set stand in the order of their declaration, each once. -/
theorem pairwise_toList (s : PermissionSet) :
    s.toList.Pairwise fun p q => p.index < q.index := by
  have hall : Permission.all.Pairwise fun p q => p.index < q.index := by decide
  exact hall.filter _

theorem toJson_eq (s : PermissionSet) :
    s.toJson = Json.ofList .text (s.toList.map Permission.name) := by
  rw [toJson, Json.ofList, Json.ofList, List.map_map]
  rfl

/-- A set is read from the names of its members in any order, each any number of times. -/
theorem ofJson_texts {ts : List String} {s : PermissionSet} :
    ofJson (Json.ofList .text ts) = .ok s ↔
      ∃ ps : List Permission, ts = ps.map Permission.name ∧ ∀ p, s.contains p ↔ p ∈ ps := by
  have hnames : ∀ ps, Reader.list Permission.ofJson (Json.ofList .text ts) = .ok ps ↔
      ts = ps.map Permission.name := fun ps => by
    simp [Json.ofList, Reader.list, mapM_eq_ok_iff, Permission.ofJson_text,
      ← List.forall₂_map_right_iff, List.forall₂_eq_eq_eq]
  simp only [ofJson, bind_eq_ok_iff, hnames, pure, Except.pure, Except.ok.injEq, ofList_eq_iff]

theorem ofJson_toJson (s : PermissionSet) : ofJson s.toJson = .ok s := by
  rw [toJson_eq, ofJson_texts]
  exact ⟨s.toList, rfl, fun p => mem_toList.symm⟩

end PermissionSet

theorem Instant.Legible.ofJson_toJson {t : Instant} (h : t.Legible) : ofJson t.toJson = .ok t :=
  Reader.written_eq_ok_iff.mpr ⟨_, rfl, h⟩

theorem Instant.legible_of_ofJson {j : Json} {t : Instant} (h : ofJson j = .ok t) : t.Legible := by
  obtain ⟨s, -, hs⟩ := Reader.written_eq_ok_iff.mp h
  exact legible_iff.mpr (dated_of_ofText? hs)

/-! ### Objects -/

theorem Principal.ofJson_toJson (p : Principal) : ofJson p.toJson = .ok p := by
  have hkind := p.kind.ofJson_toJson
  simp [toJson, ofJson, readMembers, hkind, Reader.text, expect, bind, Except.bind, pure,
    Except.pure]

theorem Json.Reader.text_text (s : String) : Reader.text (.text s) = .ok s := rfl

theorem Registration.ofJson_toJson (r : Registration) : ofJson r.toJson = .ok r :=
  ((((reads_required "acl_key" r.aclKey.ofJson_toJson).map mk).seq
    (reads_required "principal" r.principal.ofJson_toJson)).seq
    (reads_required "title" (Reader.text_text _))).seq
    (reads_required "description" (Reader.text_text _)) |>.read (by simp) (.refl _)

namespace Entry

theorem Key.ofJson_toJson (k : Key) : ofJson k.toJson = .ok k :=
  ((reads_required "acl_key" k.aclKey.ofJson_toJson).map mk).seq
    (reads_required "principal" k.principal.ofJson_toJson) |>.read (by simp) (.refl _)

theorem Value.ofJson_toJson {v : Value} (h : v.expiration.Legible) : ofJson v.toJson = .ok v :=
  (((reads_required "permissions" v.permissions.ofJson_toJson).map mk).seq
    (reads_required "securable_object_type" v.kind.ofJson_toJson)).seq
    (reads_required "expiration_date" h.ofJson_toJson) |>.read (by simp) (.refl _)

/-- The instant of a value that was read was read itself. -/
theorem Value.legible_of_ofJson {j : Json} {v : Value} (h : ofJson j = .ok v) :
    v.expiration.Legible := by
  obtain ⟨get, h⟩ := Json.Form.exists_build_of_read h
  obtain ⟨make, hmake, h⟩ := bind_eq_ok_iff.mp h
  obtain ⟨t, ht, h⟩ := bind_eq_ok_iff.mp h
  obtain ⟨make', hmake', hmake⟩ := bind_eq_ok_iff.mp hmake
  obtain ⟨kind, -, hmake⟩ := bind_eq_ok_iff.mp hmake
  obtain ⟨permissions, -, rfl⟩ := map_eq_ok_iff.mp hmake'
  obtain ⟨j', -, ht⟩ := bind_eq_ok_iff.mp ht
  cases hmake
  cases h
  exact Instant.legible_of_ofJson ht

end Entry

theorem Reservation.ofJson_toJson (r : Reservation) : ofJson r.toJson = .ok r :=
  ((((reads_required "acl_key" r.aclKey.ofJson_toJson).map mk).seq
    (reads_required "securable_object_type" r.kind.ofJson_toJson)).seq
    (reads_required "securable_object_id" r.id.ofJson_toJson)).seq
    (reads_required "securable_object_name" (Reader.text_text _)) |>.read (by simp) (.refl _)

/-- Zero is written without a sign, so every integer is one when it is read. -/
theorem Json.Number.integer?_ofInt (i : Int) :
    Number.integer? ⟨i < 0, i.natAbs, 0, true⟩ = some i := by
  simp only [integer?, decide_eq_true_eq, BEq.rfl, Bool.and_self, if_true]
  split
  · rw [if_neg (by omega)]
    exact congrArg some (by omega)
  · exact congrArg some (by omega)

theorem Json.Reader.integer_ofInt {lo hi i : Int} (hlo : lo ≤ i) (hhi : i ≤ hi) :
    Reader.integer lo hi (.ofInt i) = .ok i := by
  have hrange : (lo ≤ i && i ≤ hi) = true := by
    rw [Bool.and_eq_true, decide_eq_true_eq, decide_eq_true_eq]
    exact ⟨hlo, hhi⟩
  rw [Json.ofInt, Reader.integer, Number.integer?_ofInt, Option.filter_some, if_pos hrange]
  rfl

namespace Cursor

theorem int32_ofInt (i : Int32) : int32 (.ofInt i.toInt) = .ok i := by
  have hread := Reader.integer_ofInt i.minValue_le_toInt i.toInt_le
  show (do return Int32.ofInt (← Reader.integer _ _ _)) = _
  rw [hread]
  exact congrArg Except.ok i.ofInt_toInt

theorem int64_ofInt (i : Int64) : int64 (.ofInt i.toInt) = .ok i := by
  have hread := Reader.integer_ofInt i.minValue_le_toInt i.toInt_le
  show (do return Int64.ofInt (← Reader.integer _ _ _)) = _
  rw [hread]
  exact congrArg Except.ok i.ofInt_toInt

theorem ofJson_toJson (c : Cursor) : ofJson c.toJson = .ok c :=
  (((reads_required "partition_index" (int32_ofInt c.partitionIndex)).map mk).seq
    (reads_required "msb" (int64_ofInt c.high))).seq
    (reads_required "lsb" (int64_ofInt c.low)) |>.read (by simp) (.refl _)

end Cursor
end AccessRegistry
