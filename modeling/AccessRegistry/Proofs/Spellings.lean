/-
# Names in any case

The kinds of principals and of objects, the permissions and the settings with a choice are read
from their names, in small or capital letters. Most of them look for the lower case of a text,
after all of Unicode; permissions compare letters of ASCII. Either way a text is read just if it is
a name up to the case of its ASCII letters. The one exception is the name of the unknown object
kind: it is the only one with a k, and the Kelvin sign is read as a k.

Key definitions: `SpelledAs`, `SpelledWithKelvin`, `ReadsNames`, `ReadsLowerCase`.
Key theorems: `spells_unknown_iff`, `find?_key_eq_some_iff`, `ReadsLowerCase.reads_iff`,
`ReadsLowerCase.exact_ofStringIn`, `names_are_read_in_any_case`.
-/
import AccessRegistry.Config
import AccessRegistry.Entry
import AccessRegistry.Proofs.LowerCase

namespace AccessRegistry

open LowerCase (SameLetter StandsFor IsAscii IsSmall WordEnds kelvinSign ofStringIn)

variable {α : Type}

/-- A text is a name up to the case of letters of ASCII. -/
def SpelledAs (s name : String) : Prop := List.Forall₂ SameLetter s.toList name.toList

instance : DecidableRel SpelledAs := fun s name =>
  inferInstanceAs (Decidable (List.Forall₂ SameLetter s.toList name.toList))

theorem SpelledAs.refl (s : String) : SpelledAs s s :=
  List.forall₂_same.mpr fun c _ => SameLetter.refl c

/-- The small letters of ASCII tell how a text is spelled. -/
theorem spelledAs_iff {s name : String} : SpelledAs s name ↔ s.toLower = name.toLower := by
  have hsame : SameLetter = fun c d => c.toLower = d.toLower := by
    funext c d
    exact propext LowerCase.sameLetter_iff
  rw [SpelledAs, hsame, ← String.toList_inj, String.toLower, String.toLower, String.toList_map,
    String.toList_map, ← List.forall₂_eq_eq_eq, List.forall₂_map_left_iff,
    List.forall₂_map_right_iff]

/-- A text has a character outside of ASCII. -/
def LeavesAscii (s : String) : Prop := ∃ c ∈ s.toList, ¬ IsAscii c

theorem isAscii_of_forall₂ {cs ds : List Char} (h : List.Forall₂ SameLetter cs ds)
    (hds : ∀ d ∈ ds, IsAscii d) : ∀ c ∈ cs, IsAscii c := by
  induction h with
  | nil => simp
  | cons hcd _ ih =>
    rw [List.forall_mem_cons] at hds ⊢
    exact ⟨hcd.isAscii hds.1, ih hds.2⟩

theorem SpelledAs.not_leavesAscii {s name : String} (h : SpelledAs s name)
    (hname : ∀ d ∈ name.toList, IsAscii d) : ¬ LeavesAscii s :=
  fun ⟨c, hc, hout⟩ => hout (isAscii_of_forall₂ h hname c hc)

/-- A text spells the name of the unknown object kind, with the Kelvin sign as its k. -/
def SpelledWithKelvin (s : String) : Prop :=
  ∃ front back, s = front ++ String.singleton kelvinSign ++ back ∧
    SpelledAs front "un" ∧ SpelledAs back "nown"

section

variable {R : Char → Char → Prop} {cs front back : List Char} {d : Char}

/-- A row is matched with another in front of a character, at it, and behind it. -/
theorem forall₂_append_cons_right_iff :
    List.Forall₂ R cs (front ++ d :: back) ↔ ∃ before c after, cs = before ++ c :: after ∧
      List.Forall₂ R before front ∧ R c d ∧ List.Forall₂ R after back := by
  constructor
  · intro h
    have hfront := List.forall₂_take_append cs front (d :: back) h
    have hback := List.forall₂_drop_append cs front (d :: back) h
    obtain ⟨c, after, hc, hafter, hdrop⟩ := List.forall₂_cons_right_iff.mp hback
    refine ⟨_, c, after, ?_, hfront, hc, hafter⟩
    rw [← hdrop, List.take_append_drop]
  · rintro ⟨before, c, after, rfl, hfront, hc, hback⟩
    exact List.rel_append hfront (.cons hc hback)

end

/-- Only a k can be spelled with something that is not the same letter. -/
theorem forall₂_standsFor_iff {cs word : List Char} (hk : 'k' ∉ word) :
    List.Forall₂ StandsFor cs word ↔ List.Forall₂ SameLetter cs word := by
  induction word generalizing cs with
  | nil => rw [List.forall₂_nil_right_iff, List.forall₂_nil_right_iff]
  | cons d word ih =>
    rw [List.mem_cons, not_or] at hk
    have hd : ∀ c, StandsFor c d ↔ SameLetter c d := fun c => by
      simp [StandsFor, Ne.symm hk.1]
    simp only [List.forall₂_cons_right_iff, hd, ih hk.2]

theorem spelledWithKelvin_iff {s : String} :
    SpelledWithKelvin s ↔ ∃ before c after, s.toList = before ++ c :: after ∧
      List.Forall₂ SameLetter before "un".toList ∧ c = kelvinSign ∧
        List.Forall₂ SameLetter after "nown".toList := by
  constructor
  · rintro ⟨front, back, rfl, hfront, hback⟩
    exact ⟨front.toList, kelvinSign, back.toList, by simp, hfront, rfl, hback⟩
  · rintro ⟨before, _, after, hs, hbefore, rfl, hafter⟩
    refine ⟨.ofList before, .ofList after, ?_, ?_, ?_⟩
    · rw [← String.toList_inj, hs]
      simp
    · rwa [SpelledAs, String.toList_ofList]
    · rwa [SpelledAs, String.toList_ofList]

/-- The name of the unknown kind is spelled as such or with the Kelvin sign. -/
theorem spells_unknown_iff {s : String} :
    List.Forall₂ StandsFor s.toList "unknown".toList ↔
      SpelledAs s "unknown" ∨ SpelledWithKelvin s := by
  have hname : "unknown".toList = "un".toList ++ 'k' :: "nown".toList := by decide
  have hun : ∀ cs, List.Forall₂ StandsFor cs "un".toList ↔ List.Forall₂ SameLetter cs "un".toList :=
    fun cs => forall₂_standsFor_iff (by decide)
  have hnown : ∀ cs, List.Forall₂ StandsFor cs "nown".toList ↔
      List.Forall₂ SameLetter cs "nown".toList :=
    fun cs => forall₂_standsFor_iff (by decide)
  have hk : ∀ c, StandsFor c 'k' ↔ SameLetter c 'k' ∨ c = kelvinSign := fun c => by
    simp [StandsFor]
  -- In front of the k and behind it only letters stand for letters, so the k decides.
  rw [spelledWithKelvin_iff, SpelledAs, hname, forall₂_append_cons_right_iff,
    forall₂_append_cons_right_iff]
  simp only [hun, hnown, hk, or_and_right, and_or_left, exists_or]

/-- Whoever looks for a key finds what has the key, if everyone is found by its own. -/
theorem find?_key_eq_some_iff {all : List α} {key : α → String}
    (hback : ∀ a, all.find? (fun b => key b = key a) = some a) {t : String} {a : α} :
    all.find? (fun b => key b = t) = some a ↔ key a = t := by
  constructor
  · intro h
    have hkey := List.find?_some h
    exact of_decide_eq_true hkey
  · rintro rfl
    exact hback a

/-- A reader of names reads just the texts that are spelled as one, its own names among them, and
none with a character outside of ASCII. -/
structure ReadsNames (read : String → Option α) (name : α → String) : Prop where
  reads_iff : ∀ s a, read s = some a ↔ SpelledAs s (name a)
  reads_back : ∀ a, read (name a) = some a
  refuses : ∀ s, LeavesAscii s → read s = none

theorem ReadsNames.of_reads_iff {read : String → Option α} {name : α → String}
    (hname : ∀ a, ∀ d ∈ (name a).toList, IsAscii d)
    (h : ∀ s a, read s = some a ↔ SpelledAs s (name a)) : ReadsNames read name where
  reads_iff := h
  reads_back a := (h _ a).mpr (SpelledAs.refl _)
  refuses s hs := by
    rw [Option.eq_none_iff_forall_ne_some]
    intro a ha
    exact ((h s a).mp ha).not_leavesAscii (hname a) hs

/-- A reader of names takes the lower case of a text and looks for it among names of ASCII without
capital letters. -/
structure ReadsLowerCase (exact read : String → Option α) (name : α → String) : Prop where
  exact_iff : ∀ t a, exact t = some a ↔ name a = t
  isSmall : ∀ a, ∀ d ∈ (name a).toList, IsSmall d
  read_eq : ∀ s, read s = exact (LowerCase.ofString s)

namespace ReadsLowerCase

variable {exact read : String → Option α} {name : α → String}

theorem of_names {all : List α} (hback : ∀ a, all.find? (fun b => name b = name a) = some a)
    (hsmall : ∀ a, (name a).toList.all fun d => IsSmall d) :
    ReadsLowerCase (fun t => all.find? fun b => name b = t)
      (fun s => all.find? fun b => name b = LowerCase.ofString s) name where
  exact_iff _ _ := find?_key_eq_some_iff hback
  isSmall a := List.all_iff_forall_prop.mp (hsmall a)
  read_eq _ := rfl

theorem exact_eq_some_iff (h : ReadsLowerCase exact read name) (ends : WordEnds) {s : String}
    {a : α} :
    exact (ofStringIn ends s) = some a ↔ List.Forall₂ StandsFor s.toList (name a).toList := by
  rw [h.exact_iff, eq_comm, LowerCase.ofStringIn_eq_iff ends (h.isSmall a)]

theorem reads_iff (h : ReadsLowerCase exact read name) {s : String} {a : α} :
    read s = some a ↔ List.Forall₂ StandsFor s.toList (name a).toList := by
  rw [h.read_eq, ← LowerCase.ofStringIn_false, h.exact_eq_some_iff]

/-- Where words end does not matter: with another rule for it the same is read. -/
theorem exact_ofStringIn (h : ReadsLowerCase exact read name) (ends : WordEnds) (s : String) :
    exact (ofStringIn ends s) = read s := by
  apply Option.ext
  intro a
  rw [h.exact_eq_some_iff ends, h.reads_iff]

theorem readsNames (h : ReadsLowerCase exact read name) (hk : ∀ a, 'k' ∉ (name a).toList) :
    ReadsNames read name :=
  .of_reads_iff (fun a d hd => (h.isSmall a d hd).isAscii) fun s a => by
    rw [h.reads_iff, forall₂_standsFor_iff (hk a), SpelledAs]

end ReadsLowerCase

/-! ### The names of the registry -/

theorem PrincipalKind.readsLowerCase : ReadsLowerCase ofExactName? ofName? name :=
  .of_names (fun k => by cases k <;> rfl) (fun k => by cases k <;> decide)

theorem ObjectKind.readsLowerCase : ReadsLowerCase ofExactName? ofName? name :=
  .of_names (fun k => by cases k <;> rfl) (fun k => by cases k <;> decide)

theorem Environment.readsLowerCase : ReadsLowerCase ofExactName? ofName? name :=
  .of_names (fun e => by cases e <;> rfl) (fun e => by cases e <;> decide)

theorem Backend.readsLowerCase : ReadsLowerCase ofExactName? ofName? name :=
  .of_names (fun b => by cases b <;> rfl) (fun b => by cases b <;> decide)

theorem IdMode.readsLowerCase : ReadsLowerCase ofExactName? ofName? name :=
  .of_names (fun m => by cases m <;> rfl) (fun m => by cases m <;> decide)

/-- Permissions are looked for by the small letters of their names. -/
theorem Permission.readsNames : ReadsNames ofName? name := by
  have hname : ∀ p : Permission, ∀ d ∈ p.name.toList, IsAscii d := fun p =>
    List.all_iff_forall_prop.mp (by cases p <;> decide)
  refine .of_reads_iff hname fun s p => ?_
  have hback : ∀ p : Permission,
      all.find? (fun q => q.name.toLower = p.name.toLower) = some p := fun p => by
    cases p <;> decide +kernel
  rw [spelledAs_iff, @eq_comm _ s.toLower]
  exact find?_key_eq_some_iff hback

theorem ObjectKind.k_not_mem {k : ObjectKind} : k ≠ .unknown → 'k' ∉ k.name.toList := by
  cases k <;> decide

/-- The kinds of objects are read from their spellings, and the unknown one from those with the
Kelvin sign, too. -/
theorem ObjectKind.reads_iff {s : String} {k : ObjectKind} :
    ofName? s = some k ↔ SpelledAs s k.name ∨ k = .unknown ∧ SpelledWithKelvin s := by
  rw [readsLowerCase.reads_iff]
  by_cases hunknown : k = .unknown
  · rw [hunknown]
    exact spells_unknown_iff.trans (or_congr_right (and_iff_right rfl).symm)
  · rw [forall₂_standsFor_iff (k_not_mem hunknown)]
    simp [hunknown, SpelledAs]

/-- **Names are read in any case of their ASCII letters, and in no other spelling**, but for the
Kelvin sign in the name of the unknown object kind. The kind of a principal, an environment, a
backend, a way to make identifiers and a permission are read from just those texts that are
spelled as their name. So is the kind of an object, and the texts with the Kelvin sign instead of
the k are read as the unknown one; no other text with a character outside of ASCII is read. Every
name is read as what it names. All of that is so wherever words are taken to end, where a capital
sigma has a lower case of its own. -/
theorem names_are_read_in_any_case :
    (ReadsNames PrincipalKind.ofName? PrincipalKind.name ∧
      ReadsNames Environment.ofName? Environment.name ∧
      ReadsNames Backend.ofName? Backend.name ∧
      ReadsNames IdMode.ofName? IdMode.name ∧
      ReadsNames Permission.ofName? Permission.name) ∧
    ((∀ s k, ObjectKind.ofName? s = some k ↔
        SpelledAs s k.name ∨ k = .unknown ∧ SpelledWithKelvin s) ∧
      (∀ k, ObjectKind.ofName? k.name = some k) ∧
      ∀ s k, LeavesAscii s → ObjectKind.ofName? s = some k →
        k = .unknown ∧ SpelledWithKelvin s) ∧
    ∀ ends s,
      PrincipalKind.ofExactName? (ofStringIn ends s) = PrincipalKind.ofName? s ∧
      Environment.ofExactName? (ofStringIn ends s) = Environment.ofName? s ∧
      Backend.ofExactName? (ofStringIn ends s) = Backend.ofName? s ∧
      IdMode.ofExactName? (ofStringIn ends s) = IdMode.ofName? s ∧
      ObjectKind.ofExactName? (ofStringIn ends s) = ObjectKind.ofName? s := by
  refine ⟨⟨?_, ?_, ?_, ?_, Permission.readsNames⟩, ⟨?_, ?_, ?_⟩,
    fun ends s => ⟨?_, ?_, ?_, ?_, ?_⟩⟩
  · exact PrincipalKind.readsLowerCase.readsNames fun k => by cases k <;> decide
  · exact Environment.readsLowerCase.readsNames fun e => by cases e <;> decide
  · exact Backend.readsLowerCase.readsNames fun b => by cases b <;> decide
  · exact IdMode.readsLowerCase.readsNames fun m => by cases m <;> decide
  · exact fun s k => ObjectKind.reads_iff
  · exact fun k => ObjectKind.reads_iff.mpr (.inl (SpelledAs.refl _))
  · intro s k hs hread
    have hname : ∀ d ∈ k.name.toList, IsAscii d := fun d hd =>
      (ObjectKind.readsLowerCase.isSmall k d hd).isAscii
    exact (ObjectKind.reads_iff.mp hread).resolve_left fun h => h.not_leavesAscii hname hs
  · exact PrincipalKind.readsLowerCase.exact_ofStringIn ends s
  · exact Environment.readsLowerCase.exact_ofStringIn ends s
  · exact Backend.readsLowerCase.exact_ofStringIn ends s
  · exact IdMode.readsLowerCase.exact_ofStringIn ends s
  · exact ObjectKind.readsLowerCase.exact_ofStringIn ends s

/-- The case of letters does not count. The Kelvin sign is read as a k, which is no spelling in
ASCII, and a capital I with a dot is not read as an i. -/
example :
    SpelledAs "App_DATA" "app_data" ∧ ObjectKind.ofName? "App_DATA" = some .appData ∧
      ¬ SpelledAs "UN\u212aNOWN" "unknown" ∧ ObjectKind.ofName? "UN\u212aNOWN" = some .unknown ∧
      PrincipalKind.ofName? "SERV\u0130CE" = none := by decide +kernel

end AccessRegistry
