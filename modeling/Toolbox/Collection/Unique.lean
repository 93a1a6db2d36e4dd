import Toolbox.Go.Strings

/-
`AppendUniqueString` of package `collection`: append a string to a list unless an element already
matches it, exactly or, when `ignoreCase` is set, under `strings.EqualFold`, which is given
abstractly.  Over every sequence of appends from a list without matching elements, the list keeps
none, keeps what it started with, and matches every string appended.
-/

namespace Toolbox.Collection

variable (equalFold : Bytes → Bytes → Bool) (ignoreCase : Bool)

/-- `AppendUniqueString`: the loop returns the list as it is at the first element that matches
`str`, and appends `str` when none does. -/
def appendUniqueString (arr : List Bytes) (str : Bytes) : List Bytes :=
  go arr
where
  go : List Bytes → List Bytes
  | [] => arr ++ [str]
  | i :: rest =>
    if ignoreCase then (if equalFold i str then arr else go rest)
    else (if i = str then arr else go rest)

/-- How `AppendUniqueString` compares an element with the string. -/
def sameString (i str : Bytes) : Bool :=
  if ignoreCase then equalFold i str else i = str

/-- A list no two elements of which match, the earlier against the later. -/
def NoneMatch (arr : List Bytes) : Prop :=
  arr.Pairwise fun a b => sameString equalFold ignoreCase a b = false

variable {equalFold ignoreCase}

theorem appendUniqueString_go (arr : List Bytes) (str : Bytes) (rest : List Bytes) :
    appendUniqueString.go equalFold ignoreCase arr str rest =
      if rest.any (sameString equalFold ignoreCase · str) then arr else arr ++ [str] := by
  induction rest with
  | nil => rfl
  | cons i rest ih =>
    have hstep : appendUniqueString.go equalFold ignoreCase arr str (i :: rest) =
        if sameString equalFold ignoreCase i str then arr
        else appendUniqueString.go equalFold ignoreCase arr str rest := by
      cases ignoreCase <;> simp [appendUniqueString.go, sameString]
    rw [hstep, ih, List.any_cons]
    cases sameString equalFold ignoreCase i str <;> simp

/-- One call: the list as it was when an element matches the string, else the string appended. -/
theorem appendUniqueString_eq (arr : List Bytes) (str : Bytes) :
    appendUniqueString equalFold ignoreCase arr str =
      if arr.any (sameString equalFold ignoreCase · str) then arr else arr ++ [str] :=
  appendUniqueString_go arr str arr

theorem NoneMatch.appendUniqueString {arr : List Bytes} (h : NoneMatch equalFold ignoreCase arr)
    (str : Bytes) :
    NoneMatch equalFold ignoreCase (appendUniqueString equalFold ignoreCase arr str) := by
  rw [appendUniqueString_eq]
  split
  · exact h
  · rename_i hany
    refine List.pairwise_append.2 ⟨h, List.pairwise_singleton _ _, fun a ha b hb => ?_⟩
    rw [List.mem_singleton.1 hb]
    simpa using fun h' => hany (List.any_eq_true.2 ⟨a, ha, h'⟩)

theorem prefix_appendUniqueString (arr : List Bytes) (str : Bytes) :
    arr <+: appendUniqueString equalFold ignoreCase arr str := by
  rw [appendUniqueString_eq]
  split
  · exact List.prefix_refl _
  · exact List.prefix_append _ _

/-- After a call the string is in the list, or an element matches it. -/
theorem appendUniqueString_covers (arr : List Bytes) (str : Bytes) :
    ∃ a ∈ appendUniqueString equalFold ignoreCase arr str,
      a = str ∨ sameString equalFold ignoreCase a str := by
  rw [appendUniqueString_eq]
  split
  · obtain ⟨a, ha, hsame⟩ := List.any_eq_true.1 ‹_›
    exact ⟨a, ha, .inr hsame⟩
  · exact ⟨str, List.mem_append_right _ (List.mem_singleton_self _), .inl rfl⟩

theorem mem_appendUniqueString {arr : List Bytes} {str a : Bytes}
    (h : a ∈ appendUniqueString equalFold ignoreCase arr str) : a ∈ arr ∨ a = str := by
  rw [appendUniqueString_eq] at h
  split at h
  · exact .inl h
  · simpa using h

/-- Over every sequence of appends from a list without matching elements: no two elements match,
the list starts as it started, every string appended is in it or matched by an element, and
nothing else entered it. -/
theorem foldl_appendUniqueString {arr : List Bytes} (h : NoneMatch equalFold ignoreCase arr)
    (strs : List Bytes) :
    NoneMatch equalFold ignoreCase (strs.foldl (appendUniqueString equalFold ignoreCase) arr) ∧
      arr <+: strs.foldl (appendUniqueString equalFold ignoreCase) arr ∧
      (∀ s ∈ strs, ∃ a ∈ strs.foldl (appendUniqueString equalFold ignoreCase) arr,
        a = s ∨ sameString equalFold ignoreCase a s) ∧
      ∀ a ∈ strs.foldl (appendUniqueString equalFold ignoreCase) arr, a ∈ arr ∨ a ∈ strs := by
  induction strs generalizing arr with
  | nil => exact ⟨h, List.prefix_refl _, nofun, fun a ha => .inl ha⟩
  | cons s strs ih =>
    obtain ⟨hu, hpre, hcov, hmem⟩ := ih (h.appendUniqueString s)
    refine ⟨hu, (prefix_appendUniqueString arr s).trans hpre, ?_, fun a ha => ?_⟩
    · rintro t (_ | ⟨_, ht⟩)
      · obtain ⟨a, ha, hsame⟩ := @appendUniqueString_covers equalFold ignoreCase arr s
        exact ⟨a, hpre.subset ha, hsame⟩
      · exact hcov t ht
    · rcases hmem a ha with ha | ha
      · rcases mem_appendUniqueString ha with ha | rfl
        · exact .inl ha
        · exact .inr (List.mem_cons_self _ _)
      · exact .inr (List.mem_cons_of_mem _ ha)

/-- Appends of `app`, `APP` and `api` with case ignored, `strings.EqualFold` taken as ASCII case
folding. -/
def asciiEqualFold (a b : Bytes) : Bool := Strings.toLower a == Strings.toLower b

theorem foldl_appendUniqueString_case :
    NoneMatch asciiEqualFold true [] ∧
      (NoneMatch asciiEqualFold true
          ([lit "app", lit "APP", lit "api"].foldl (appendUniqueString asciiEqualFold true) []) ∧
        [] <+: [lit "app", lit "APP", lit "api"].foldl (appendUniqueString asciiEqualFold true) [] ∧
        (∀ s ∈ [lit "app", lit "APP", lit "api"], ∃ a ∈ [lit "app", lit "APP", lit "api"].foldl
          (appendUniqueString asciiEqualFold true) [], a = s ∨ sameString asciiEqualFold true a s) ∧
        ∀ a ∈ [lit "app", lit "APP", lit "api"].foldl (appendUniqueString asciiEqualFold true) [],
          a ∈ [] ∨ a ∈ [lit "app", lit "APP", lit "api"]) :=
  ⟨List.Pairwise.nil, foldl_appendUniqueString List.Pairwise.nil _⟩

end Toolbox.Collection
