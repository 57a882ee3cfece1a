import Curation.Digest
import Curation.Icon
import Mathlib.Data.List.Basic
import Mathlib.Data.Nat.Digits.Defs

/-! Where icons lie. The path of a blob tells which collection it was stored for, because neither a digest nor an
    extension that is accepted has a slash in it; and the address of a blob leads back to its path. -/

namespace Curation

/-! ### Names without a slash -/

namespace Digest

def alphabet : List Char := "0123456789abcdef".toList

/-- The text has the form of a digest. -/
def IsHex (digest : String) : Prop := digest.length = 40 ∧ ∀ c ∈ digest.toList, c ∈ alphabet

theorem mem_alphabet_of_mem_toDigits (n : Nat) : ∀ c ∈ Nat.toDigits 16 n, c ∈ alphabet := by
  have hdigit : ∀ k < 16, Nat.digitChar k ∈ alphabet := by decide
  induction n using Nat.strongRecOn with
  | ind n ih =>
    intro c hc
    rw [Nat.toDigits_eq_if (by decide)] at hc
    split at hc
    · rename_i hn
      exact List.mem_singleton.mp hc ▸ hdigit n hn
    · rename_i hn
      rcases List.mem_append.mp hc with hc | hc
      · exact ih (n / 16) (by omega) c hc
      · exact List.mem_singleton.mp hc ▸ hdigit _ (Nat.mod_lt _ (by decide))

theorem mem_alphabet_of_mem_digits {width n : Nat} {c : Char} (hc : c ∈ Text.digits 16 width n) : c ∈ alphabet := by
  rcases List.mem_append.mp hc with hzero | hdigit
  · rw [List.eq_of_mem_replicate hzero]
    decide
  · exact mem_alphabet_of_mem_toDigits n c hdigit

theorem length_digits (x : UInt32) : (Text.digits 16 8 x.toNat).length = 8 := by
  have hshort : (Nat.toDigits 16 x.toNat).length ≤ 8 := Nat.toDigits_length 16 x.toNat 8 (by decide) x.toNat_lt
  simp only [Text.digits, List.length_append, List.length_replicate]
  omega

theorem isHex_hex (data : ByteArray) : IsHex (hex data) := by
  unfold hex
  refine ⟨?_, fun c hc => ?_⟩
  · simp [length_digits]
  · rw [String.toList_ofList] at hc
    obtain ⟨word, -, hdigit⟩ := List.mem_flatMap.mp hc
    exact mem_alphabet_of_mem_digits hdigit

theorem IsHex.slash_not_mem {digest : String} (h : IsHex digest) : '/' ∉ digest.toList := by
  intro hslash
  have hmem := h.2 '/' hslash
  revert hmem
  decide

end Digest

theorem slash_not_mem_of_contentType? {extension contentType : String}
    (h : Icon.contentType? extension = some contentType) : '/' ∉ extension.toList := by
  intro hslash
  have hnames : ∀ e ∈ Icon.contentTypes, '/' ∉ e.1.toList := by decide
  obtain ⟨before, after, heq, -⟩ := List.lookup_eq_some_iff.mp h
  have hmem : (Text.lower extension, contentType) ∈ Icon.contentTypes := by
    rw [heq]
    exact List.mem_append_right _ List.mem_cons_self
  -- A slash has no other lower case, so that it would stand in the name of the format too.
  refine hnames _ hmem ?_
  rw [Text.lower, String.toList_ofList]
  exact List.mem_map.mpr ⟨'/', hslash, by decide⟩

/-- What stands before the last of some marks is determined by the whole. -/
theorem append_cons_inj {α : Type} {a : α} {xs ys xs' ys' : List α} (hys : a ∉ ys) (hys' : a ∉ ys')
    (h : xs ++ a :: ys = xs' ++ a :: ys') : xs = xs' := by
  rcases List.append_eq_append_iff.mp h with ⟨zs, rfl, hzs⟩ | ⟨zs, rfl, hzs⟩
  · cases zs with
    | nil => exact (List.append_nil xs).symm
    | cons z zs =>
      cases hzs
      exact absurd (List.mem_append_right _ List.mem_cons_self) hys
  · cases zs with
    | nil => exact List.append_nil xs'
    | cons z zs =>
      cases hzs
      exact absurd (List.mem_append_right _ List.mem_cons_self) hys'

namespace Icon.Place

variable {p : Place} {id id' path : String}

/-- The path is one of those that blobs of a collection are stored under. -/
def Owns (p : Place) (id path : String) : Prop :=
  ∃ digest extension, '/' ∉ digest.toList ∧ '/' ∉ extension.toList ∧ path = p.path id digest extension

theorem owns_path {digest extension contentType : String} (hdigest : Digest.IsHex digest)
    (accepted : contentType? extension = some contentType) : p.Owns id (p.path id digest extension) :=
  ⟨_, _, hdigest.slash_not_mem, slash_not_mem_of_contentType? accepted, rfl⟩

theorem toList_path (digest extension : String) : (p.path id digest extension).toList =
    p.space.toList ++ '/' :: (id.toList ++ '/' :: (digest.toList ++ '.' :: extension.toList)) := by
  simp [path]

/-- No two collections share a path. -/
theorem Owns.id_eq (h : p.Owns id path) (h' : p.Owns id' path) : id = id' := by
  obtain ⟨digest, extension, hdigest, hextension, rfl⟩ := h
  obtain ⟨digest', extension', hdigest', hextension', heq⟩ := h'
  have hlist := congrArg String.toList heq
  rw [toList_path, toList_path, List.append_cancel_left_eq, List.cons.injEq] at hlist
  refine String.toList_inj.mp (append_cons_inj ?_ ?_ hlist.2)
  · simp [hdigest, hextension]
  · simp [hdigest', hextension']

theorem pathOfUrl?_url (hpath : path ≠ "") : p.pathOfUrl? (p.url path) = some path := by
  have hlist : (p.url path).toList = (p.cdn ++ "/").toList ++ path.toList := by simp [url]
  unfold pathOfUrl?
  rw [hlist, afterPrefix?_append]
  cases hchars : path.toList with
  | nil => exact absurd (String.toList_eq_nil_iff.mp hchars) hpath
  | cons c cs => exact congrArg some (by rw [← hchars, String.ofList_toList])

/-- Nothing but the address of a path leads to the path. -/
theorem pathOfUrl?_eq_some_iff {address : String} :
    p.pathOfUrl? address = some path ↔ path ≠ "" ∧ p.url path = address := by
  constructor
  · intro h
    unfold pathOfUrl? at h
    split at h
    · rename_i c cs hafter
      cases h
      refine ⟨by simp, String.toList_inj.mp ?_⟩
      rw [afterPrefix?_eq_some hafter]
      simp [url]
    · cases h
  · rintro ⟨hpath, rfl⟩
    exact pathOfUrl?_url hpath

theorem Owns.pathOfUrl?_url (h : p.Owns id path) : p.pathOfUrl? (p.url path) = some path := by
  obtain ⟨digest, extension, -, -, rfl⟩ := h
  refine Place.pathOfUrl?_url fun hempty => ?_
  have hlist := congrArg String.toList hempty
  rw [toList_path] at hlist
  simp at hlist

end Icon.Place

end Curation
