import TrilliumGrpc.Codegen.Render

/-! # Names of a schema

The identifiers that name messages, services, methods and the segments of a
package in a schema, and the dotted names they form.
-/

namespace TrilliumGrpc.Codegen

def isIdentStart (c : Char) : Bool := c.isAlpha || c = '_'

def isIdentChar (c : Char) : Bool := c.isAlphanum || c = '_'

/-- A start character, and other characters of the given kind behind it. -/
def isWord (other : Char → Bool) (s : String) : Bool :=
  match s.toList with
  | [] => false
  | c :: cs => isIdentStart c && cs.all other

def isIdentifier (s : String) : Bool := isWord isIdentChar s

/-- Identifiers joined by dots; there need not be one. -/
def dotted (segments : List String) : String :=
  String.ofList (List.intercalate ['.'] (segments.map String.toList))

def IsPackage (package : String) : Prop :=
  ∃ segments, (∀ segment ∈ segments, isIdentifier segment = true) ∧ package = dotted segments

def isDottedChar (c : Char) : Bool := isIdentChar c || c = '.'

theorem isIdentChar_of_start {c : Char} (h : isIdentStart c = true) : isIdentChar c = true := by
  simp only [isIdentStart, isIdentChar, Char.isAlphanum, Bool.or_eq_true] at h ⊢
  tauto

theorem isWord_eq_true_iff (other : Char → Bool) (s : String) : isWord other s = true ↔
    ∃ c cs, s.toList = c :: cs ∧ isIdentStart c = true ∧ ∀ d ∈ cs, other d = true := by
  unfold isWord
  cases s.toList with
  | nil => simp
  | cons c cs => simp

theorem mem_identifier {s : String} (h : isIdentifier s = true) :
    ∀ c ∈ s.toList, isIdentChar c = true := by
  obtain ⟨c, cs, hs, hstart, hrest⟩ := (isWord_eq_true_iff _ _).mp h
  intro d hd
  rw [hs] at hd
  rcases List.mem_cons.mp hd with rfl | hd
  · exact isIdentChar_of_start hstart
  · exact hrest d hd

theorem identifier_ne_empty {s : String} (h : isIdentifier s = true) : s ≠ "" := by
  rintro rfl
  cases h

theorem splitOn_dotted {segments : List String} (hne : segments ≠ [])
    (h : ∀ segment ∈ segments, '.' ∉ segment.toList) :
    (dotted segments).toList.splitOn '.' = segments.map String.toList := by
  rw [dotted, String.toList_ofList, List.splitOn_intercalate]
  · intro cs hcs
    obtain ⟨segment, hmem, rfl⟩ := List.mem_map.mp hcs
    exact h segment hmem
  · simpa using hne

theorem isWord_append {s t : String} (hs : isWord isDottedChar s = true)
    (ht : ∀ c ∈ t.toList, isDottedChar c = true) : isWord isDottedChar (s ++ t) = true := by
  obtain ⟨c, cs, hcs, hstart, hrest⟩ := (isWord_eq_true_iff _ _).mp hs
  rw [isWord_eq_true_iff]
  refine ⟨c, cs ++ t.toList, ?_, hstart, ?_⟩
  · rw [String.toList_append, hcs, List.cons_append]
  · intro d hd
    rcases List.mem_append.mp hd with hd | hd
    · exact hrest d hd
    · exact ht d hd

theorem isDotted_identifier {s : String} (h : isIdentifier s = true) :
    isWord isDottedChar s = true := by
  obtain ⟨c, cs, hcs, hstart, hrest⟩ := (isWord_eq_true_iff _ _).mp h
  refine (isWord_eq_true_iff _ _).mpr ⟨c, cs, hcs, hstart, ?_⟩
  intro d hd
  rw [isDottedChar, hrest d hd, Bool.true_or]

theorem mem_dottedWord {s : String} (h : isWord isDottedChar s = true) :
    ∀ c ∈ s.toList, isDottedChar c = true := by
  obtain ⟨c, cs, hcs, hstart, hrest⟩ := (isWord_eq_true_iff _ _).mp h
  intro d hd
  rw [hcs] at hd
  rcases List.mem_cons.mp hd with rfl | hd
  · rw [isDottedChar, isIdentChar_of_start hstart, Bool.true_or]
  · exact hrest d hd

theorem mem_behind_dot {s : String} (h : isWord isDottedChar s = true) :
    ∀ c ∈ ("." ++ s).toList, isDottedChar c = true := by
  intro c hc
  rw [String.toList_append] at hc
  rcases List.mem_append.mp hc with hc | hc
  · have hdot : c = '.' := by simpa using hc
    subst hdot
    rfl
  · exact mem_dottedWord h c hc

theorem dotted_cons_cons (s t : String) (rest : List String) :
    dotted (s :: t :: rest) = s ++ ("." ++ dotted (t :: rest)) := by
  apply String.toList_inj.mp
  simp [dotted, List.intercalate_cons_cons]

theorem dotted_singleton (s : String) : dotted [s] = s := by
  simp [dotted]

theorem isWord_dotted {s : String} {segments : List String}
    (h : ∀ segment ∈ s :: segments, isIdentifier segment = true) :
    isWord isDottedChar (dotted (s :: segments)) = true := by
  induction segments generalizing s with
  | nil =>
      rw [dotted_singleton]
      exact isDotted_identifier (h s List.mem_cons_self)
  | cons t rest ih =>
      have hrest : ∀ segment ∈ t :: rest, isIdentifier segment = true :=
        fun segment hmem => h segment (List.mem_cons_of_mem s hmem)
      rw [dotted_cons_cons]
      exact isWord_append (isDotted_identifier (h s List.mem_cons_self))
        (mem_behind_dot (ih hrest))

theorem isWord_servicePath {service : Service} (hpackage : IsPackage service.package)
    (hname : isIdentifier service.protoName = true) :
    isWord isDottedChar (servicePath service) = true := by
  have hword := isDotted_identifier hname
  rw [servicePath]
  split
  · exact hword
  · rename_i hne
    obtain ⟨segments, hsegments, heq⟩ := hpackage
    cases segments with
    | nil => exact absurd heq hne
    | cons s rest =>
        rw [heq, String.append_assoc]
        exact isWord_append (isWord_dotted hsegments) (mem_behind_dot hword)

end TrilliumGrpc.Codegen
