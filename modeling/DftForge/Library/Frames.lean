import Mathlib.Data.List.Induction

/-! # Frames in a stream

A stream in which every frame ends with a separator twice in a row. A reader takes it in pieces,
cuts off the frames that are complete and keeps the rest: wherever the stream is cut into pieces,
it finds the same frames.
-/
namespace DftForge.Library.Frames
variable {α : Type*} [DecidableEq α] (sep : α)

/-- An element before the first frame. -/
def before (x : α) : List (List α) × List α → List (List α) × List α
  | ([], rest) => ([],x :: rest)
  | (frame :: frames, rest) => ((x :: frame) :: frames,rest)

/-- The frames of a text, without their separators, and what follows the last of them. -/
def cut : List α → List (List α) × List α
  | x :: y :: t =>
    if x = sep ∧ y = sep then ([] :: (cut t).1,(cut t).2) else before x (cut (y :: t))
  | t => ([],t)

/-- One piece more. -/
def read (s : List (List α) × List α) (piece : List α) : List (List α) × List α :=
  (s.1 ++ (cut sep (s.2 ++ piece)).1,(cut sep (s.2 ++ piece)).2)

def readAll (pieces : List (List α)) : List (List α) × List α := pieces.foldl (read sep) ([],[])

/-- The stream of some frames. -/
def join (frames : List (List α)) : List α := frames.flatMap fun frame => frame ++ [sep,sep]

variable {sep} {t : List α}

theorem cut_of_no_frame (h : (cut sep t).1 = []) : (cut sep t).2 = t := by
  induction t using cut.induct sep with
  | case1 x y t hsep ih =>
    rw [cut,if_pos hsep] at h
    cases h
  | case2 x y t hsep ih =>
    rw [cut,if_neg hsep] at h ⊢
    cases hcut : cut sep (y :: t) with
    | mk frames rest =>
      rw [hcut] at h ih
      cases frames with
      | nil => exact congrArg (x :: ·) (ih rfl)
      | cons frame frames => cases h
  | case3 t ht =>
    rw [cut]
    exact ht

/-- The frames of a stream are those of a first part and those of its rest with what follows. -/
theorem cut_append (a b : List α) : cut sep (a ++ b) = read sep (cut sep a) b := by
  induction a using cut.induct sep with
  | case1 x y t hsep ih =>
    rw [List.cons_append,List.cons_append,cut,if_pos hsep,ih,cut,if_pos hsep]
    rfl
  | case2 x y t hsep ih =>
    have hwhole : cut sep (x :: y :: (t ++ b)) = before x (cut sep (y :: (t ++ b))) := if_neg hsep
    have hfirst : cut sep (x :: y :: t) = before x (cut sep (y :: t)) := if_neg hsep
    rw [List.cons_append] at ih
    rw [List.cons_append,List.cons_append,hwhole,hfirst,ih]
    cases hcut : cut sep (y :: t) with
    | mk frames rest =>
      cases frames with
      | nil =>
        -- nothing is cut off yet, so the rest is the part itself
        obtain rfl : rest = y :: t := by
          have hrest : (cut sep (y :: t)).2 = y :: t := cut_of_no_frame (by rw [hcut])
          rwa [hcut] at hrest
        show before x (cut sep (y :: (t ++ b))) = cut sep (x :: y :: (t ++ b))
        exact hwhole.symm
      | cons frame frames => rfl
  | case3 t ht =>
    rw [cut.eq_2 sep t ht]
    rfl

/-- The pieces are read as the whole stream is. -/
theorem readAll_eq (pieces : List (List α)) : readAll sep pieces = cut sep pieces.flatten := by
  induction pieces using List.reverseRecOn with
  | nil => rfl
  | append_singleton pieces piece ih =>
    rw [readAll,List.foldl_append,List.foldl_cons,List.foldl_nil,← readAll,ih,List.flatten_append,
      List.flatten_singleton,cut_append]

theorem cut_frame {frame : List α} (hframe : sep ∉ frame) (t : List α) :
    cut sep (frame ++ sep :: sep :: t) = (frame :: (cut sep t).1,(cut sep t).2) := by
  induction frame with
  | nil =>
    rw [List.nil_append,cut,if_pos ⟨rfl,rfl⟩]
  | cons x frame ih =>
    rw [List.mem_cons,not_or] at hframe
    have hx : ¬ (x = sep) := Ne.symm hframe.1
    have hcut : cut sep (x :: (frame ++ sep :: sep :: t)) = before x (cut sep (frame ++ sep :: sep :: t)) := by
      cases frame with
      | nil => exact if_neg fun h => hx h.1
      | cons y frame => exact if_neg fun h => hx h.1
    rw [List.cons_append,hcut,ih hframe.2]
    rfl

/-- What was joined is cut into the same frames, with nothing left. -/
theorem cut_join {frames : List (List α)} (hframes : ∀ frame ∈ frames, sep ∉ frame) :
    cut sep (join sep frames) = (frames,[]) := by
  induction frames with
  | nil => rfl
  | cons frame frames ih =>
    obtain ⟨hframe,hrest⟩ := List.forall_mem_cons.mp hframes
    rw [join,List.flatMap_cons,← join,List.append_assoc,List.cons_append,List.cons_append,List.nil_append,
      cut_frame hframe,ih hrest]

/-- From a part of the stream no frame is read that was not sent, and none out of its order. -/
theorem readAll_prefix {frames pieces : List (List α)} (hframes : ∀ frame ∈ frames, sep ∉ frame)
    (hpieces : pieces.flatten <+: join sep frames) : (readAll sep pieces).1 <+: frames := by
  obtain ⟨rest,hrest⟩ := hpieces
  have hcut : cut sep (pieces.flatten ++ rest) = _ := cut_append pieces.flatten rest
  rw [hrest,cut_join hframes,← readAll_eq] at hcut
  exact ⟨_,(congrArg Prod.fst hcut).symm⟩

theorem readAll_join {frames pieces : List (List α)} (hframes : ∀ frame ∈ frames, sep ∉ frame)
    (hpieces : pieces.flatten = join sep frames) : (readAll sep pieces).1 = frames := by
  rw [readAll_eq,hpieces,cut_join hframes]

end DftForge.Library.Frames
