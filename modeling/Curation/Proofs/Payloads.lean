import Curation.Payload
import Mathlib.Algebra.GroupWithZero.Nat
import Mathlib.Order.Bounds.Basic

/-! What is in the body of an upload, and what may be the matter with it, apart from how it is read: chunk by chunk,
    with a look at the limit after each one. The cut into chunks makes no difference to the result, and no chunk is
    pulled after the first one that exceeds the limit (`read_stream`). -/

namespace Curation.Payload

/-- The pieces that a body comes in. -/
def pieces : Payload → List ByteArray
  | .whole data => [data]
  | .stream chunks _ => chunks

/-- The sender goes away before the end. -/
def broken : Payload → Bool
  | .whole _ => false
  | .stream _ cut => cut

/-- All bytes of a body. -/
def content (p : Payload) : ByteArray := p.pieces.foldl (· ++ ·) .empty

/-- What is the matter with a body: there is something in it, and more than the limit, or its end is missing. -/
def fault? (p : Payload) (limit : Int) (message : String) : Option Failure :=
  if p.pieces ≠ [] ∧ limit < p.content.size then some (tooLarge message)
  else if p.broken then some .disconnected
  else none

/-- How many bytes some chunks come to. -/
def total (chunks : List ByteArray) : Nat := (chunks.map ByteArray.size).sum

theorem size_foldl (chunks : List ByteArray) (buffer : ByteArray) :
    (chunks.foldl (· ++ ·) buffer).size = buffer.size + total chunks := by
  induction chunks generalizing buffer with
  | nil => rfl
  | cons chunk chunks ih =>
    rw [List.foldl_cons, ih, ByteArray.size_append, Nat.add_assoc]
    rfl

theorem size_le_foldl (chunks : List ByteArray) (buffer : ByteArray) :
    buffer.size ≤ (chunks.foldl (· ++ ·) buffer).size := by
  rw [size_foldl]
  exact Nat.le_add_right _ _

/-- Reading stops at a chunk that exceeds the limit just if all of them together do: what comes after it makes a body no
    smaller. -/
theorem readChunks_fst (limit : Int) (message : String) (cut : Bool) (chunks : List ByteArray) (buffer : ByteArray)
    (pulled : Nat) : (readChunks limit message cut buffer pulled chunks).1 =
      if chunks ≠ [] ∧ limit < (chunks.foldl (· ++ ·) buffer).size then .error (tooLarge message)
      else if cut then .error .disconnected
      else .ok (chunks.foldl (· ++ ·) buffer) := by
  induction chunks generalizing buffer pulled with
  | nil => simp [readChunks]
  | cons chunk chunks ih =>
    have hgrows := size_le_foldl chunks (buffer ++ chunk)
    rw [List.foldl_cons]
    unfold readChunks
    by_cases hover : limit < (buffer ++ chunk).size
    · have htotal : limit < (chunks.foldl (· ++ ·) (buffer ++ chunk)).size := by omega
      dsimp only
      rw [if_pos hover, if_pos ⟨List.cons_ne_nil _ _, htotal⟩]
    · have hrest : (chunks ≠ [] ∧ limit < (chunks.foldl (· ++ ·) (buffer ++ chunk)).size) ↔
          limit < (chunks.foldl (· ++ ·) (buffer ++ chunk)).size := by
        refine ⟨And.right, fun h => ⟨?_, h⟩⟩
        rintro rfl
        exact hover h
      dsimp only
      rw [if_neg hover, ih]
      simp only [hrest, List.cons_ne_nil, ne_eq, not_false_eq_true, true_and]

/-- A body is read unless something is the matter with it. -/
theorem read_fst (p : Payload) (limit : Int) (message : String) :
    (p.read limit message).1 = (p.fault? limit message).elim (.ok p.content) .error := by
  cases p with
  | whole data =>
    simp only [read, fault?, pieces, broken, content, List.foldl_cons, List.foldl_nil, ByteArray.empty_append]
    by_cases h : limit < data.size
    · simp [h]
    · simp [h]
  | stream chunks cut =>
    rw [read, readChunks_fst]
    unfold fault? content pieces broken
    by_cases hover : chunks ≠ [] ∧ limit < (chunks.foldl (· ++ ·) ByteArray.empty).size
    · rw [if_pos hover, if_pos hover]
      rfl
    · rw [if_neg hover, if_neg hover]
      cases cut with
      | false => rfl
      | true => rfl

/-! ### How much is pulled -/

theorem size_content_stream (chunks : List ByteArray) (cut : Bool) :
    (stream chunks cut).content.size = total chunks := by
  rw [content, pieces, size_foldl, ByteArray.size_empty, Nat.zero_add]

/-- The first chunks, so many of them, exceed the limit after what has been read already. -/
def Exceeds (limit : Int) (buffer : ByteArray) (chunks : List ByteArray) (count : Nat) : Prop :=
  limit < (buffer.size + total (chunks.take count) : Nat)

variable {limit : Int} {buffer chunk : ByteArray} {chunks : List ByteArray}

theorem exceeds_zero : Exceeds limit buffer chunks 0 ↔ limit < buffer.size := Iff.rfl

theorem exceeds_succ {count : Nat} :
    Exceeds limit buffer (chunk :: chunks) (count + 1) ↔ Exceeds limit (buffer ++ chunk) chunks count := by
  simp only [Exceeds, total, List.take_succ_cons, List.map_cons, List.sum_cons, ByteArray.size_append, Nat.add_assoc]

theorem Exceeds.length {count : Nat} (h : Exceeds limit buffer chunks count) :
    Exceeds limit buffer chunks chunks.length := by
  have hparts : total chunks = total (chunks.take count) + total (chunks.drop count) := by
    rw [total, total, total, ← List.sum_append, ← List.map_append, List.take_append_drop]
  unfold Exceeds at h ⊢
  rw [List.take_length]
  omega

/-- What is read stays within the limit up to the last chunk that is pulled. -/
theorem readChunks_snd (message : String) (cut : Bool) (chunks : List ByteArray) (pulled : Nat)
    (hbuffer : buffer.size ≤ limit) :
    ∃ count, (readChunks limit message cut buffer pulled chunks).2 = pulled + count ∧
      (¬ Exceeds limit buffer chunks chunks.length → count = chunks.length) ∧
      (Exceeds limit buffer chunks chunks.length → IsLeast {k | Exceeds limit buffer chunks k} count) := by
  induction chunks generalizing buffer pulled with
  | nil => exact ⟨0, rfl, fun _ => rfl, fun h => absurd (exceeds_zero.mp h) (by omega)⟩
  | cons chunk chunks ih =>
    have hnone : ¬ Exceeds limit buffer (chunk :: chunks) 0 := fun h => absurd (exceeds_zero.mp h) (by omega)
    unfold readChunks
    dsimp only
    by_cases hover : limit < (buffer ++ chunk).size
    · have hone : Exceeds limit buffer (chunk :: chunks) 1 := exceeds_succ.mpr (exceeds_zero.mpr hover)
      rw [if_pos hover]
      refine ⟨1, rfl, fun hfits => ?_, fun _ => ⟨hone, fun k hk => ?_⟩⟩
      · exact absurd hone.length hfits
      · cases k with
        | zero => exact absurd hk hnone
        | succ k => exact Nat.succ_le_succ (Nat.zero_le k)
    · rw [if_neg hover]
      obtain ⟨count, hpulled, hall, hleast⟩ := ih (pulled + 1) (Int.not_lt.mp hover)
      refine ⟨count + 1, by omega, fun hfits => ?_, fun hexceeds => ⟨?_, fun k hk => ?_⟩⟩
      · rw [hall fun h => hfits (exceeds_succ.mpr h), List.length_cons]
      · exact exceeds_succ.mpr (hleast (exceeds_succ.mp hexceeds)).1
      · cases k with
        | zero => exact absurd hk hnone
        | succ k => exact Nat.succ_le_succ ((hleast (exceeds_succ.mp hexceeds)).2 (exceeds_succ.mp hk))

/-- What is the matter with bytes under a limit that is no less than zero, whether they come in one piece or in many. -/
theorem fault?_of_unbroken {p : Payload} {limit : Nat} {message : String} (hunbroken : p.broken = false) :
    p.fault? limit message = if limit < p.content.size then some (tooLarge message) else none := by
  have hsome : limit < p.content.size → p.pieces ≠ [] := by
    intro hover hnone
    have hempty : p.content = .empty := by rw [content, hnone, List.foldl_nil]
    rw [hempty] at hover
    exact Nat.not_lt_zero _ hover
  unfold fault?
  rw [hunbroken]
  by_cases hover : limit < p.content.size
  · rw [if_pos ⟨hsome hover, Int.ofNat_lt.mpr hover⟩, if_pos hover]
  · rw [if_neg fun h => hover (Int.ofNat_lt.mp h.2), if_neg hover]
    rfl

/-- However bytes are cut into chunks, a stream of them is read like all of them at once, and no further than it has to
    be. The result is that of the whole: the bytes if they are within the limit, else the failure. All chunks are
    pulled if they are within the limit, else the fewest that together exceed it. -/
theorem read_stream (limit : Nat) (message : String) (chunks : List ByteArray) :
    let content := (stream chunks).content
    ((stream chunks).read limit message).1 = ((whole content).read limit message).1 ∧
      (content.size ≤ limit → (stream chunks).read limit message = (.ok content, chunks.length)) ∧
      (limit < content.size → ∃ pulled, (stream chunks).read limit message = (.error (tooLarge message), pulled) ∧
        IsLeast {k | limit < ((chunks.take k).map ByteArray.size).sum} pulled) := by
  intro content
  have hresult : ((stream chunks).read limit message).1 =
      if limit < content.size then .error (tooLarge message) else .ok content := by
    rw [read_fst, fault?_of_unbroken rfl, apply_ite (Option.elim · _ _)]
    rfl
  have hempty : (ByteArray.empty.size : Int) ≤ limit := Int.natCast_nonneg limit
  obtain ⟨pulled, hpulled, hall, hleast⟩ := readChunks_snd message false chunks 0 hempty
  have hexceeds (k : Nat) : Exceeds limit .empty chunks k ↔ limit < ((chunks.take k).map ByteArray.size).sum := by
    rw [Exceeds, ByteArray.size_empty, Nat.zero_add, Int.ofNat_lt]
    rfl
  have hall' : Exceeds limit .empty chunks chunks.length ↔ limit < content.size := by
    rw [hexceeds, List.take_length, size_content_stream]
    rfl
  rw [Nat.zero_add] at hpulled
  refine ⟨?_, fun hfits => Prod.ext ?_ ?_, fun hover => ⟨pulled, Prod.ext ?_ hpulled, ?_⟩⟩
  · rw [hresult, read]
    simp only [Int.ofNat_lt]
  · rw [hresult, if_neg (Nat.not_lt.mpr hfits)]
  · exact hpulled.trans (hall fun h => Nat.not_lt.mpr hfits (hall'.mp h))
  · rw [hresult, if_pos hover]
  · have hset : {k | limit < ((chunks.take k).map ByteArray.size).sum} = {k | Exceeds limit .empty chunks k} :=
      Set.ext fun k => (hexceeds k).symm
    rw [hset]
    exact hleast (hall'.mpr hover)

end Curation.Payload
