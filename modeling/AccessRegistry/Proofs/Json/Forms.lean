/-
# Forms read what they are written as

A form reads an object just if it can read each member that it asks for. That a value is read back
from its members is told of the parts of a form: a member that is asked for reads one value
(`Form.reads_required`), and two forms with different names read what they read one after the
other (`Form.Reads.seq`). A whole form has to have different names in all of its parts
(`Form.Reads.read`).

Key definitions: `Json.Form.Reads`.
Key theorems: `Json.Reader.list_eq_ok_iff`, `Json.Form.Reads.seq`, `Json.Form.Reads.read`,
`Json.Form.exists_build_of_read`.
-/
import AccessRegistry.Json.Form
import AccessRegistry.Proofs.Results

namespace AccessRegistry.Json

variable {α β : Type}

theorem expect_eq_ok_iff {x : Option α} {a : α} : expect x = .ok a ↔ x = some a := by
  cases x <;> simp [expect]

namespace Reader

theorem text_eq_ok_iff {j : Json} {s : String} : text j = .ok s ↔ j = .text s := by
  cases j <;> simp [text]

theorem written_eq_ok_iff {parse : String → Option α} {j : Json} {a : α} :
    written parse j = .ok a ↔ ∃ s, j = .text s ∧ parse s = some a := by
  simp only [written, bind_eq_ok_iff, text_eq_ok_iff, expect_eq_ok_iff]

theorem name_text {ofName? : String → Option α} {s : String} {a : α} (h : ofName? s = some a) :
    name ofName? (.text s) = .ok a :=
  expect_eq_ok_iff.mpr h

theorem list_eq_ok_iff {read : Reader α} {j : Json} {xs : List α} :
    list read j = .ok xs ↔
      ∃ items, j = .array items ∧ List.Forall₂ (fun item x => read item = .ok x) items xs := by
  cases j <;> simp [list, mapM_eq_ok_iff]

theorem list_ofList {read : Reader α} {write : α → Json} {xs : List α}
    (h : ∀ x ∈ xs, read (write x) = .ok x) : list read (ofList write xs) = .ok xs := by
  rw [list_eq_ok_iff]
  refine ⟨_, rfl, ?_⟩
  rw [List.forall₂_map_left_iff]
  exact List.forall₂_same.mpr h

end Reader

/-- A member that is there is found if no other one has its name. -/
theorem lookup_of_mem {ms : List (String × Json)} (hnames : (ms.map Prod.fst).Nodup)
    {m : String × Json} (hm : m ∈ ms) : ms.lookup m.1 = some m.2 := by
  induction ms with
  | nil => cases hm
  | cons m' ms ih =>
    rw [List.map_cons, List.nodup_cons] at hnames
    obtain rfl | hm := List.mem_cons.mp hm
    · exact List.lookup_cons_self
    · have hne : m.1 ≠ m'.1 := fun h => hnames.1 (h ▸ List.mem_map_of_mem hm)
      rw [List.lookup_cons, beq_eq_false_iff_ne.mpr hne]
      exact ih hnames.2 hm

namespace Form

theorem find?_of_mem {fields : List Field} (hnames : (fields.map Field.name).Nodup) {f : Field}
    (hf : f ∈ fields) : fields.find? (·.name = f.name) = some f := by
  induction fields with
  | nil => cases hf
  | cons f' fields ih =>
    rw [List.map_cons, List.nodup_cons] at hnames
    obtain rfl | hf := List.mem_cons.mp hf
    · simp
    · have hne : f'.name ≠ f.name := fun h => hnames.1 (h ▸ List.mem_map_of_mem hf)
      rw [List.find?_cons_of_neg (by simpa using hne), ih hnames.2 hf]

/-- Members whose names are known and all different, and whose values have the right form, pass. -/
theorem checkMembers_of_checks {fields : List Field} {ms : List (String × Json)}
    {seen : List String} (hfields : (fields.map Field.name).Nodup)
    (hnames : (ms.map Prod.fst).Nodup) (hseen : ∀ m ∈ ms, m.1 ∉ seen)
    (hchecks : ∀ m ∈ ms, ∃ f ∈ fields, f.name = m.1 ∧ f.check m.2 = .ok ()) :
    checkMembers fields seen ms = .ok () := by
  induction ms generalizing seen with
  | nil => rfl
  | cons m ms ih =>
    obtain ⟨name, j⟩ := m
    rw [List.map_cons, List.nodup_cons] at hnames
    rw [List.forall_mem_cons] at hseen hchecks
    obtain ⟨⟨f, hf, rfl, hcheck⟩, hchecks⟩ := hchecks
    have hrest : checkMembers fields (f.name :: seen) ms = .ok () := by
      refine ih hnames.2 (fun m hm => ?_) hchecks
      rw [List.mem_cons, not_or]
      exact ⟨fun h => hnames.1 (List.mem_map.mpr ⟨m, hm, h⟩), hseen.2 m hm⟩
    rw [checkMembers, find?_of_mem hfields hf]
    simp only [if_neg hseen.1, hcheck]
    exact hrest

/-! ### Forms -/

/-- A form reads a value from members: it asks for members of just these names, each of which has
the right form, and makes the value of them. -/
structure Reads (form : Form α) (ms : List (String × Json)) (a : α) : Prop where
  names : form.fields.map Field.name = ms.map Prod.fst
  checks : ∀ m ∈ ms, ∃ f ∈ form.fields, f.name = m.1 ∧ f.check m.2 = .ok ()
  builds : ∀ get : String → Option Json, (∀ m ∈ ms, get m.1 = some m.2) → form.build get = .ok a

theorem reads_required {read : Reader α} {j : Json} {a : α} (name : String) (h : read j = .ok a) :
    (required name read).Reads [(name, j)] a where
  names := rfl
  checks := by
    intro m hm
    rw [List.mem_singleton.mp hm]
    exact ⟨_, List.mem_singleton_self _, rfl, by simp [field, h, Except.map]⟩
  builds get hget := by
    have hj : get name = some j := hget _ (List.mem_singleton_self _)
    show expect (get name) >>= read = .ok a
    rw [hj]
    exact h

theorem Reads.map {form : Form α} {ms : List (String × Json)} {a : α} (h : form.Reads ms a)
    (f : α → β) : (f <$> form).Reads ms (f a) where
  names := h.names
  checks := h.checks
  builds get hget := by
    show f <$> form.build get = .ok (f a)
    rw [h.builds get hget]
    rfl

/-- Forms read what they read one after the other. -/
theorem Reads.seq {forms : Form (α → β)} {form : Form α} {ms ms' : List (String × Json)}
    {f : α → β} {a : α} (hf : forms.Reads ms f) (ha : form.Reads ms' a) :
    (forms <*> form).Reads (ms ++ ms') (f a) where
  names := by
    rw [List.map_append, ← hf.names, ← ha.names, ← List.map_append]
    rfl
  checks m hm := by
    obtain hm | hm := List.mem_append.mp hm
    · obtain ⟨g, hg, h⟩ := hf.checks m hm
      exact ⟨g, List.mem_append_left _ hg, h⟩
    · obtain ⟨g, hg, h⟩ := ha.checks m hm
      exact ⟨g, List.mem_append_right _ hg, h⟩
  builds get hget := by
    have hforms := hf.builds get fun m hm => hget m (List.mem_append_left _ hm)
    have hform := ha.builds get fun m hm => hget m (List.mem_append_right _ hm)
    show (do let g ← forms.build get; let x ← form.build get; return g x) = Except.ok (f a)
    rw [hforms, hform]
    rfl

/-- A form reads an object of the members that it asks for, in whatever order they stand. -/
theorem Reads.read {form : Form α} {ms ms' : List (String × Json)} {a : α} (h : form.Reads ms a)
    (hnames : (ms.map Prod.fst).Nodup) (hperm : ms'.Perm ms) :
    form.read (.object ms') = .ok a := by
  have hnames' : (ms'.map Prod.fst).Nodup := (hperm.map Prod.fst).nodup_iff.mpr hnames
  have hcheck : checkMembers form.fields [] ms' = .ok () :=
    checkMembers_of_checks (h.names ▸ hnames) hnames' (fun _ _ => List.not_mem_nil)
      fun m hm => h.checks m (hperm.mem_iff.mp hm)
  have hbuild : form.build (fun name => ms'.lookup name) = .ok a :=
    h.builds _ fun m hm => lookup_of_mem hnames' (hperm.mem_iff.mpr hm)
  rw [Form.read, hcheck]
  exact hbuild

/-- What a form reads is made of members, wherever it finds them. -/
theorem exists_build_of_read {form : Form α} {j : Json} {a : α} (h : form.read j = .ok a) :
    ∃ get, form.build get = .ok a := by
  cases j with
  | object ms =>
    obtain ⟨_, -, h⟩ := bind_eq_ok_iff.mp h
    exact ⟨_, h⟩
  | array items =>
    obtain ⟨_, -, h⟩ := bind_eq_ok_iff.mp h
    exact ⟨_, h⟩
  | severed ms skippable =>
    obtain ⟨_, -, h⟩ := bind_eq_ok_iff.mp h
    cases h
  | null | bool | number | text | unreadable | broken => cases h

end Form
end AccessRegistry.Json
