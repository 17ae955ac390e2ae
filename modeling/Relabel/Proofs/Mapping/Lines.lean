import Mathlib
import Relabel.Mapping.Lines

/-!
# Lines of a mapping file

A line is a segment of the file that ends where the file does or at a line feed, and it starts where
the file does or behind a line feed. Its number is told by the line feeds before it. The lines of a
file come in the order of their numbers, and those that are blank are missing among them.
-/

namespace Relabel.Mapping

/-! ## Segments -/

/-- A part of a source without line feeds that reaches on each side to a line feed or to the end of
the source. -/
structure IsSegment (source front segment back : Bytes) : Prop where
  source_eq : source = front ++ segment ++ back
  plain : 10 ∉ segment
  starts : front = [] ∨ ∃ earlier, front = earlier ++ [10]
  ends : back = [] ∨ ∃ later, back = 10 :: later

/-- A source without line feeds is one segment. -/
theorem isSegment_iff_of_plain {source front segment back : Bytes} (plain : 10 ∉ source) :
    IsSegment source front segment back ↔ front = [] ∧ segment = source ∧ back = [] := by
  constructor
  · rintro ⟨rfl, -, starts, ends⟩
    rw [List.mem_append, List.mem_append, not_or, not_or] at plain
    obtain rfl : front = [] := by
      rcases starts with rfl | ⟨earlier, rfl⟩
      · rfl
      · exact absurd (List.mem_append_right _ List.mem_cons_self) plain.1.1
    obtain rfl : back = [] := by
      rcases ends with rfl | ⟨later, rfl⟩
      · rfl
      · exact absurd List.mem_cons_self plain.2
    simp
  · rintro ⟨rfl, rfl, rfl⟩
    exact ⟨by simp, plain, .inl rfl, .inl rfl⟩

/-- A line feed of a source is the first one, or it comes later. -/
theorem before_feed {first rest front back : Bytes} (plain : 10 ∉ first)
    (same : first ++ 10 :: rest = front ++ 10 :: back) :
    (front = first ∧ back = rest) ∨
      ∃ between, front = first ++ 10 :: between ∧ rest = between ++ 10 :: back := by
  rcases List.append_eq_append_iff.1 same with ⟨middle, rfl, tails⟩ | ⟨middle, rfl, tails⟩
  · cases middle with
    | nil =>
      obtain ⟨-, rfl⟩ := List.cons.inj tails
      exact .inl ⟨List.append_nil _, rfl⟩
    | cons byte middle =>
      obtain ⟨rfl, rfl⟩ := List.cons.inj tails
      exact .inr ⟨middle, rfl, rfl⟩
  · cases middle with
    | nil =>
      obtain ⟨-, rfl⟩ := List.cons.inj tails
      exact .inl ⟨(List.append_nil _).symm, rfl⟩
    | cons byte middle =>
      obtain ⟨rfl, -⟩ := List.cons.inj tails
      exact absurd (List.mem_append_right _ List.mem_cons_self) plain

/-- A segment of a source ends at the first line feed, or it is a segment of what follows. -/
theorem isSegment_iff_of_feed {first rest front segment back : Bytes} (plain : 10 ∉ first) :
    IsSegment (first ++ 10 :: rest) front segment back ↔
      (front = [] ∧ segment = first ∧ back = 10 :: rest) ∨
        ∃ between, front = first ++ 10 :: between ∧ IsSegment rest between segment back := by
  constructor
  · rintro ⟨source_eq, segmentPlain, rfl | ⟨earlier, rfl⟩, ends⟩
    · rw [List.nil_append] at source_eq
      rcases ends with rfl | ⟨later, rfl⟩
      · rw [List.append_nil] at source_eq
        exact absurd (source_eq ▸ List.mem_append_right _ List.mem_cons_self) segmentPlain
      · rcases before_feed plain source_eq with ⟨rfl, rfl⟩ | ⟨between, rfl, -⟩
        · exact .inl ⟨rfl, rfl, rfl⟩
        · exact absurd (List.mem_append_right _ List.mem_cons_self) segmentPlain
    · -- The line feed before the segment is the first one of the source, or it comes later.
      rw [List.append_assoc, List.append_assoc, List.singleton_append] at source_eq
      rcases before_feed plain source_eq with ⟨rfl, rfl⟩ | ⟨between, rfl, rfl⟩
      · exact .inr ⟨[], by simp, by simp, segmentPlain, .inl rfl, ends⟩
      · exact .inr ⟨between ++ [10], by simp, by simp, segmentPlain, .inr ⟨between, rfl⟩, ends⟩
  · rintro (⟨rfl, rfl, rfl⟩ | ⟨between, rfl, rfl, segmentPlain, starts, ends⟩)
    · exact ⟨by simp, plain, .inl rfl, .inr ⟨rest, rfl⟩⟩
    · refine ⟨by simp, segmentPlain, .inr ?_, ends⟩
      rcases starts with rfl | ⟨earlier, rfl⟩
      · exact ⟨first, by simp⟩
      · exact ⟨first ++ 10 :: earlier, by simp⟩

theorem segmentsFrom_eq (read : Bytes) (found : List Bytes) (rest : Bytes) :
    segmentsFrom read found rest = found.reverse ++ segmentsFrom read [] rest := by
  induction rest generalizing read found with
  | nil => simp [segmentsFrom]
  | cons byte rest ih =>
    simp only [segmentsFrom]
    split
    · rw [ih, ih [] [read.reverse]]
      simp
    · exact ih (byte :: read) found

/-- The segments are counted by the line feeds before them. -/
theorem mem_zipIdx_segmentsFrom {read : Bytes} (plain : 10 ∉ read) {rest segment : Bytes}
    {start number : Nat} :
    (segment, number) ∈ (segmentsFrom read [] rest).zipIdx start ↔
      ∃ front back, IsSegment (read.reverse ++ rest) front segment back ∧
        number = start + front.count 10 := by
  induction rest generalizing read start with
  | nil =>
    have plainSource : 10 ∉ read.reverse ++ [] := by simpa using plain
    simp only [isSegment_iff_of_plain plainSource]
    simp [segmentsFrom]
  | cons byte rest ih =>
    rw [segmentsFrom]
    split
    · next isFeed =>
      have plainFirst : 10 ∉ read.reverse := by simpa using plain
      have later : (segment, number) ∈ (segmentsFrom [] [] rest).zipIdx (start + 1) ↔
          ∃ front back, IsSegment rest front segment back ∧
            number = start + 1 + front.count 10 := ih List.not_mem_nil
      rw [isFeed, segmentsFrom_eq, List.reverse_singleton, List.singleton_append, List.zipIdx_cons,
        List.mem_cons, later]
      constructor
      · rintro (same | ⟨front, back, isSegment, rfl⟩)
        · obtain ⟨rfl, rfl⟩ := Prod.mk.inj same
          exact ⟨[], 10 :: rest, (isSegment_iff_of_feed plainFirst).2 (.inl ⟨rfl, rfl, rfl⟩), rfl⟩
        · refine ⟨read.reverse ++ 10 :: front, back,
            (isSegment_iff_of_feed plainFirst).2 (.inr ⟨front, rfl, isSegment⟩), ?_⟩
          simp [List.count_eq_zero.2 plain]
          omega
      · rintro ⟨front, back, isSegment, rfl⟩
        rcases (isSegment_iff_of_feed plainFirst).1 isSegment with
          ⟨rfl, rfl, rfl⟩ | ⟨between, rfl, inRest⟩
        · exact .inl rfl
        · refine .inr ⟨between, back, inRest, ?_⟩
          simp [List.count_eq_zero.2 plain]
          omega
    · next noFeed =>
      have plain : 10 ∉ byte :: read := by simp [plain, Ne.symm noFeed]
      rw [ih plain, List.reverse_cons, List.append_assoc, List.singleton_append]

theorem pairwise_segments (source : Bytes) :
    ((segments source).zipIdx 1).Pairwise fun first second => first.2 < second.2 := by
  have numbers := List.pairwise_lt_range' (s := 1) (n := (segments source).length)
  rwa [← List.zipIdx_map_snd, List.pairwise_map] at numbers

/-! ## Lines -/

/-- A segment is a line with a carriage return behind it, or a line that does not end in one. -/
def EndsLine (segment bytes : Bytes) : Prop :=
  segment = bytes ++ [13] ∨ (segment = bytes ∧ bytes.getLast? ≠ some 13)

theorem dropReturn_concat (bytes : Bytes) : dropReturn (bytes ++ [13]) = bytes := by
  simp [dropReturn]

theorem dropReturn_of_noReturn {bytes : Bytes} (noReturn : bytes.getLast? ≠ some 13) :
    dropReturn bytes = bytes := by
  unfold dropReturn
  split
  · next rest turned =>
    rw [← List.head?_reverse, turned] at noReturn
    exact absurd rfl noReturn
  · rfl

theorem endsLine_iff {segment bytes : Bytes} :
    EndsLine segment bytes ↔ dropReturn segment = bytes := by
  constructor
  · rintro (rfl | ⟨rfl, noReturn⟩)
    · exact dropReturn_concat bytes
    · exact dropReturn_of_noReturn noReturn
  · rintro rfl
    by_cases isReturn : segment.getLast? = some 13
    · obtain ⟨front, rfl⟩ := List.getLast?_eq_some_iff.1 isReturn
      exact .inl (by rw [dropReturn_concat])
    · rw [dropReturn_of_noReturn isReturn]
      exact .inr ⟨rfl, isReturn⟩

/-- A line stands in a source: its number is one more than the number of line feeds before it, and
it is not blank. -/
def IsLineOf (source : Bytes) (line : Line) : Prop :=
  ∃ front segment back, IsSegment source front segment back ∧ line.number = 1 + front.count 10 ∧
    EndsLine segment line.bytes ∧ line.bytes.all Text.isAsciiBlank = false

theorem mem_lines_iff {source : Bytes} {line : Line} :
    line ∈ lines source ↔ IsLineOf source line := by
  have numbered (segment : Bytes) : (segment, line.number) ∈ (segments source).zipIdx 1 ↔
      ∃ front back, IsSegment source front segment back ∧ line.number = 1 + front.count 10 :=
    mem_zipIdx_segmentsFrom List.not_mem_nil
  rw [lines, List.mem_filter, List.mem_map, Bool.not_eq_true']
  constructor
  · rintro ⟨⟨⟨segment, number⟩, isSegment, rfl⟩, notBlank⟩
    obtain ⟨front, back, isSegment, counted⟩ := (numbered segment).1 isSegment
    exact ⟨front, segment, back, isSegment, counted, endsLine_iff.2 rfl, notBlank⟩
  · rintro ⟨front, segment, back, isSegment, counted, ends, notBlank⟩
    refine ⟨⟨(segment, line.number), (numbered segment).2 ⟨front, back, isSegment, counted⟩, ?_⟩,
      notBlank⟩
    simp only [endsLine_iff.1 ends]

/-- The lines of a source come in the order of their numbers. -/
theorem pairwise_lines (source : Bytes) :
    (lines source).Pairwise fun first second => first.number < second.number := by
  refine List.Pairwise.filter _ (List.pairwise_map.2 ?_)
  exact pairwise_segments source

section

variable {source : Bytes} {line other : Line} {before after : List Line}

theorem number_lt_of_split (split : lines source = before ++ line :: after) :
    (∀ other ∈ before, other.number < line.number) ∧
      ∀ other ∈ after, line.number < other.number := by
  have ordered := pairwise_lines source
  rw [split, List.pairwise_append, List.pairwise_cons] at ordered
  exact ⟨fun other isBefore => ordered.2.2 other isBefore line List.mem_cons_self,
    ordered.2.1.1⟩

/-- The lines in front of a line are those with smaller numbers. -/
theorem mem_before_iff (split : lines source = before ++ line :: after) :
    other ∈ before ↔ IsLineOf source other ∧ other.number < line.number := by
  obtain ⟨smaller, greater⟩ := number_lt_of_split split
  rw [← mem_lines_iff, split, List.mem_append, List.mem_cons]
  constructor
  · exact fun isBefore => ⟨.inl isBefore, smaller other isBefore⟩
  · rintro ⟨isBefore | rfl | isAfter, less⟩
    · exact isBefore
    · exact absurd less (lt_irrefl _)
    · exact absurd less (lt_asymm (greater other isAfter))

/-- Lines are told apart by their numbers. -/
theorem IsLineOf.eq_of_number (first : IsLineOf source line) (second : IsLineOf source other)
    (same : line.number = other.number) : line = other := by
  obtain ⟨before, after, split⟩ := List.append_of_mem (mem_lines_iff.2 first)
  obtain ⟨smaller, greater⟩ := number_lt_of_split split
  have isOther := mem_lines_iff.2 second
  rw [split, List.mem_append, List.mem_cons] at isOther
  rcases isOther with isBefore | rfl | isAfter
  · exact absurd same (smaller other isBefore).ne'
  · rfl
  · exact absurd same (greater other isAfter).ne

end

end Relabel.Mapping
