import Curation.Files.Path
import Mathlib.Data.List.Basic
import Mathlib.Data.List.Induction
import Mathlib.Logic.Relation

/-! Where paths lead. -/

namespace Curation

/-! ### Texts cut at slashes -/

namespace Text

theorem splitChars_cons (sep c : Char) (cs : List Char) :
    ∃ piece pieces, splitChars sep cs = piece :: pieces ∧
      splitChars sep (c :: cs) = if c = sep then [] :: piece :: pieces else (c :: piece) :: pieces := by
  cases hpieces : splitChars sep cs with
  | nil => exact absurd hpieces (splitChars_ne_nil sep cs)
  | cons piece pieces => exact ⟨piece, pieces, rfl, by rw [splitChars, hpieces]⟩

/-- A text is cut at a separator as its two sides are. -/
theorem splitChars_append (sep : Char) (a b : List Char) :
    splitChars sep (a ++ sep :: b) = splitChars sep a ++ splitChars sep b := by
  induction a with
  | nil =>
    obtain ⟨piece, pieces, hb, hcons⟩ := splitChars_cons sep sep b
    rw [List.nil_append, hcons, if_pos rfl, hb]
    rfl
  | cons c a ih =>
    obtain ⟨piece, pieces, ha, hcons⟩ := splitChars_cons sep c a
    obtain ⟨piece', pieces', hab, hcons'⟩ := splitChars_cons sep c (a ++ sep :: b)
    rw [ih, ha, List.cons_append, List.cons.injEq] at hab
    obtain ⟨rfl, rfl⟩ := hab
    rw [List.cons_append, hcons', hcons]
    split <;> rfl

theorem mem_of_mem_splitChars {sep c : Char} {cs piece : List Char} (hpiece : piece ∈ splitChars sep cs)
    (hc : c ∈ piece) : c ∈ cs := by
  induction cs generalizing piece with
  | nil =>
    rw [splitChars, List.mem_singleton] at hpiece
    exact hpiece ▸ hc
  | cons d cs ih =>
    obtain ⟨first, pieces, hpieces, hcons⟩ := splitChars_cons sep d cs
    rw [hpieces] at ih
    rw [hcons] at hpiece
    have hrest (h : piece ∈ first :: pieces) : c ∈ d :: cs := List.mem_cons_of_mem _ (ih h hc)
    split at hpiece
    · rcases List.mem_cons.mp hpiece with rfl | hmem
      · cases hc
      · exact hrest hmem
    · rcases List.mem_cons.mp hpiece with rfl | hmem
      · rcases List.mem_cons.mp hc with rfl | hc
        · exact List.mem_cons_self
        · exact List.mem_cons_of_mem _ (ih List.mem_cons_self hc)
      · exact hrest (List.mem_cons_of_mem _ hmem)

end Text

namespace Files

open Files.Path (follow namesOf)

/-! ### Names in order -/

/-- A name that an entry of a directory may have. -/
def IsName (name : String) : Prop := name ≠ "" ∧ name ≠ "." ∧ name ≠ ".."

theorem name_cases (name : String) : name = "" ∨ name = "." ∨ name = ".." ∨ IsName name := by
  by_cases hempty : name = ""
  · exact .inl hempty
  by_cases hhere : name = "."
  · exact .inr (.inl hhere)
  by_cases hup : name = ".."
  · exact .inr (.inr (.inl hup))
  · exact .inr (.inr (.inr ⟨hempty, hhere, hup⟩))

/-- One step of putting the names of an absolute path in order. An empty name and the one for "here" are left out, the
    one for "up" takes the name before it along, and above the top there is nothing. -/
inductive Tidies : List String → List String → Prop
  | empty (before after : List String) : Tidies (before ++ "" :: after) (before ++ after)
  | here (before after : List String) : Tidies (before ++ "." :: after) (before ++ after)
  | up {name : String} (before after : List String) (hname : IsName name) :
    Tidies (before ++ name :: ".." :: after) (before ++ after)
  | top (after : List String) : Tidies (".." :: after) after

/-- Names that are put in order until nothing is left to do but to follow them. -/
structure Normal (names place : List String) : Prop where
  tidied : Relation.ReflTransGen Tidies names place
  named : ∀ name ∈ place, IsName name

/-- The names that count on the way. -/
def kept (names : List String) : List String := names.filter fun n => n ≠ "" && n ≠ "."

theorem kept_append (a b : List String) : kept (a ++ b) = kept a ++ kept b := List.filter_append _ _

theorem follow_append (place a b : List String) : follow place (a ++ b) = follow (follow place a) b :=
  List.foldl_append ..

theorem step_of_isName {place : List String} {name : String} (h : IsName name) :
    Path.step place name = place ++ [name] := if_neg h.2.2

theorem kept_of_isName {name : String} (h : IsName name) (names : List String) :
    kept (name :: names) = name :: kept names := by
  simp [kept, h.1, h.2.1]

theorem follow_of_named (place : List String) {names : List String} (h : ∀ name ∈ names, IsName name) :
    follow place (kept names) = place ++ names := by
  induction names generalizing place with
  | nil => exact (List.append_nil _).symm
  | cons name names ih =>
    have hname := h name List.mem_cons_self
    have hrest := ih (place ++ [name]) fun n hn => h n (List.mem_cons_of_mem _ hn)
    rw [kept_of_isName hname, follow, List.foldl_cons, step_of_isName hname]
    rw [List.append_assoc] at hrest
    exact hrest

theorem Tidies.follow_eq {names names' : List String} (h : Tidies names names') :
    follow [] (kept names) = follow [] (kept names') := by
  cases h with
  | empty before after => simp [kept]
  | here before after => simp [kept]
  | up before after hname =>
    rw [kept_append, kept_append, follow_append, follow_append, kept_of_isName hname]
    simp [kept, follow, Path.step, hname.2.2]
  | top after => rfl

theorem Normal.follow_eq {names place : List String} (h : Normal names place) : follow [] (kept names) = place := by
  obtain ⟨htidied, hnamed⟩ := h
  have hsame : follow [] (kept names) = follow [] (kept place) := by
    clear hnamed
    induction htidied with
    | refl => rfl
    | tail _ hstep ih => exact ih.trans hstep.follow_eq
  rw [hsame, follow_of_named [] hnamed, List.nil_append]

theorem Tidies.append {names names' : List String} (h : Tidies names names') (after : List String) :
    Tidies (names ++ after) (names' ++ after) := by
  cases h with
  | empty before rest => simpa using Tidies.empty before (rest ++ after)
  | here before rest => simpa using Tidies.here before (rest ++ after)
  | up before rest hname => simpa using Tidies.up before (rest ++ after) hname
  | top => exact Tidies.top (names' ++ after)

theorem normal_follow (names : List String) : Normal names (follow [] (kept names)) := by
  -- by induction on the last name: those before it are in order already, and it takes at most one step more
  induction names using List.reverseRecOn with
  | nil => exact ⟨.refl, by simp [kept, follow]⟩
  | append_singleton names name ih =>
    obtain ⟨place, hplace⟩ : ∃ place, place = follow [] (kept names) := ⟨_, rfl⟩
    rw [← hplace] at ih
    have hreached : Relation.ReflTransGen Tidies (names ++ [name]) (place ++ [name]) :=
      ih.tidied.lift (· ++ [name]) fun _ _ h => h.append [name]
    rw [kept_append, follow_append, ← hplace]
    rcases name_cases name with rfl | rfl | rfl | hname
    · have hstep : Tidies (place ++ [""]) place := by simpa using Tidies.empty place []
      exact ⟨hreached.tail hstep, ih.named⟩
    · have hstep : Tidies (place ++ ["."]) place := by simpa using Tidies.here place []
      exact ⟨hreached.tail hstep, ih.named⟩
    · rcases List.eq_nil_or_concat' place with rfl | ⟨above, last, rfl⟩
      · exact ⟨hreached.tail (Tidies.top []), ih.named⟩
      · have hlast : IsName last := ih.named last (by simp)
        have hstep : Tidies (above ++ [last] ++ [".."]) above := by simpa using Tidies.up above [] hlast
        have hfollow : follow (above ++ [last]) (kept [".."]) = above := by simp [kept, follow, Path.step]
        rw [hfollow]
        exact ⟨hreached.tail hstep, fun n hn => ih.named n (List.mem_append_left _ hn)⟩
    · have hall : ∀ n ∈ [name], IsName n := fun n hn => List.mem_singleton.mp hn ▸ hname
      rw [follow_of_named place hall]
      exact ⟨hreached, fun n hn => (List.mem_append.mp hn).elim (ih.named n) (hall n)⟩

/-- The place that names lead to is the only one that they can be put in order to. -/
theorem normal_iff {names place : List String} : Normal names place ↔ follow [] (kept names) = place :=
  ⟨Normal.follow_eq, fun h => h ▸ normal_follow names⟩

/-! ### Where the text of a path leads -/

/-- The text of an absolute path leads to a place. -/
def LeadsTo (text : String) (place : List String) : Prop := Normal (Text.splitAt '/' text) place

/-- The path that a text means where a first one leads. -/
def joined (base text : String) : String := if text.toList.head? = some '/' then text else base ++ "/" ++ text

theorem leadsTo_iff {text : String} {place : List String} : LeadsTo text place ↔ follow [] (namesOf text) = place :=
  normal_iff

theorem LeadsTo.unique {text : String} {place place' : List String} (h : LeadsTo text place)
    (h' : LeadsTo text place') : place = place' := (leadsTo_iff.mp h).symm.trans (leadsTo_iff.mp h')

theorem namesOf_joined (base text : String) :
    namesOf (joined base text) =
      if text.toList.head? = some '/' then namesOf text else namesOf base ++ namesOf text := by
  unfold joined
  split
  · rfl
  · unfold namesOf Text.splitAt
    rw [String.toList_append, String.toList_append, List.append_assoc]
    have hslash : "/".toList = ['/'] := rfl
    rw [hslash, List.singleton_append, Text.splitChars_append, List.map_append, List.filter_append]

theorem isAbsolute_ofText (text : String) : (Path.ofText text).isAbsolute = true ↔ text.toList.head? = some '/' := by
  unfold Path.isAbsolute Path.ofText Path.rootOf
  cases text.toList with
  | nil => simp
  | cons c cs =>
    by_cases hc : c = '/'
    · subst hc
      simp only [List.takeWhile_cons_of_pos, beq_self_eq_true, List.length_cons, List.head?_cons]
      split <;> simp_all
    · simp [hc]

theorem resolve_ofText {base : String} {home : List String} (h : LeadsTo base home) (text : String) :
    LeadsTo (joined base text) ((Path.ofText text).resolve home) := by
  rw [leadsTo_iff] at h ⊢
  unfold Path.resolve
  rw [namesOf_joined]
  by_cases habsolute : text.toList.head? = some '/'
  · rw [if_pos habsolute, if_pos ((isAbsolute_ofText text).mpr habsolute)]
    rfl
  · rw [if_neg habsolute, if_neg (mt (isAbsolute_ofText text).mp habsolute), follow_append, h]
    rfl

/-- What a path means at another one leads where it leads from where that one leads. -/
theorem resolve_join (p q : Path) (home : List String) : (p.join q).resolve home = q.resolve (p.resolve home) := by
  unfold Path.join
  by_cases hq : q.isAbsolute = true
  · rw [if_pos hq, Path.resolve, Path.resolve, if_pos hq, if_pos hq]
  · have habsolute : (Path.mk p.root (p.names ++ q.names)).isAbsolute = p.isAbsolute := rfl
    simp only [Path.resolve, if_neg hq, habsolute, follow_append]
    split <;> rfl

theorem mem_of_mem_namesOf {c : Char} {text name : String} (hname : name ∈ namesOf text) (hc : c ∈ name.toList) :
    c ∈ text.toList := by
  obtain ⟨piece, hpiece, rfl⟩ := List.mem_map.mp (List.mem_filter.mp hname).1
  rw [String.toList_ofList] at hc
  exact Text.mem_of_mem_splitChars hpiece hc

end Files

end Curation
