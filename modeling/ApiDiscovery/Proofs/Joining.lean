import ApiDiscovery.Proofs.Trimming
import ApiDiscovery.Url.Join

/-!
# Joining is associative

One slash is put between two texts that are not empty, whatever slashes they have there already. What is joined twice
has two such places, and the text in the middle loses slashes at both of its ends. It makes no difference which end
is first, also where the middle is nothing but slashes and the two places meet:

    in the middle     the middle keeps                        between the outer two
    nothing           nothing                                 one slash
    only slashes      nothing                                 one slash
    anything else     all but the slashes at its ends         the middle with a slash on either side

The empty text adds nothing on either side, so texts with joining are a monoid. What is joined of two texts that are
not empty is told by taking them apart (`exists_slashes_before`, `exists_slashes_behind`): the slashes at the place
where they meet go, however many there are, and one comes instead.

Main statement: `joinUrl_laws`.
-/

namespace ApiDiscovery

open Text

@[simp] theorem joinChars_nil (base : List Char) : joinChars base [] = base := rfl

@[simp] theorem nil_joinChars (path : List Char) : joinChars [] path = path := by
  cases path <;> rfl

theorem joinChars_of_ne_nil {base path : List Char} (hbase : base ≠ []) (hpath : path ≠ []) :
    joinChars base path = trimRight isSlash base ++ '/' :: path.dropWhile isSlash := by
  rw [joinChars, if_neg fun h => hpath (List.isEmpty_iff.1 h), if_neg fun h => hbase (List.isEmpty_iff.1 h)]

/-- The slash between two texts goes with the second one or with the first. -/
theorem trimRight_append_slash (s t : List Char) :
    trimRight isSlash (s ++ '/' :: t) =
      if (trimRight isSlash t).isEmpty then trimRight isSlash s else s ++ '/' :: trimRight isSlash t := by
  rw [trimRight_append, trimRight_cons]
  split <;> rfl

theorem joinChars_assoc (a b c : List Char) : joinChars (joinChars a b) c = joinChars a (joinChars b c) := by
  by_cases ha : a = []
  · rw [ha, nil_joinChars, nil_joinChars]
  by_cases hb : b = []
  · rw [hb, joinChars_nil, nil_joinChars]
  by_cases hc : c = []
  · rw [hc, joinChars_nil, joinChars_nil]
  have hab : joinChars a b ≠ [] := by
    rw [joinChars_of_ne_nil ha hb]
    exact List.append_ne_nil_of_right_ne_nil _ (List.cons_ne_nil _ _)
  have hbc : joinChars b c ≠ [] := by
    rw [joinChars_of_ne_nil hb hc]
    exact List.append_ne_nil_of_right_ne_nil _ (List.cons_ne_nil _ _)
  rw [joinChars_of_ne_nil hab hc, joinChars_of_ne_nil ha hbc, joinChars_of_ne_nil ha hb, joinChars_of_ne_nil hb hc]
  -- What remains is whether anything is left of the middle.
  rw [trimRight_append_slash, List.dropWhile_append, trimRight_dropWhile, trimRight_trimRight]
  by_cases hmiddle : (trimRight isSlash b).dropWhile isSlash = []
  · rw [hmiddle, List.isEmpty_nil, if_pos rfl, if_pos rfl, List.dropWhile_cons_of_pos rfl, List.dropWhile_idempotent]
  · have hkept : ¬ ((trimRight isSlash b).dropWhile isSlash).isEmpty = true := fun h => hmiddle (List.isEmpty_iff.1 h)
    rw [if_neg hkept, if_neg hkept, List.append_assoc, List.cons_append]

theorem joinUrl_assoc (a b c : String) : joinUrl (joinUrl a b) c = joinUrl a (joinUrl b c) := by
  rw [joinUrl, joinUrl, joinUrl, joinUrl, String.toList_ofList, String.toList_ofList, joinChars_assoc]

@[simp] theorem joinUrl_empty (base : String) : joinUrl base "" = base := String.ofList_toList

@[simp] theorem empty_joinUrl (path : String) : joinUrl "" path = path := by
  rw [joinUrl]
  exact (congrArg String.ofList (nil_joinChars path.toList)).trans String.ofList_toList

/-- Whatever is joined to a text stands behind it, with one slash in between. -/
theorem joinUrl_eq_or_prefix {base : String} (hbase : base ≠ "") (path : String) :
    joinUrl base path = base ∨ trimRight isSlash base.toList ++ ['/'] <+: (joinUrl base path).toList := by
  by_cases hpath : path = ""
  · rw [hpath]
    exact .inl (joinUrl_empty base)
  · refine .inr ⟨path.toList.dropWhile isSlash, ?_⟩
    rw [joinUrl, String.toList_ofList, joinChars_of_ne_nil (mt String.toList_eq_nil_iff.1 hbase)
      (mt String.toList_eq_nil_iff.1 hpath), List.append_assoc]
    rfl

/-! ## The slashes where two texts meet -/

theorem eq_slashes {s : List Char} (h : ∀ c ∈ s, isSlash c = true) : s = List.replicate s.length '/' :=
  List.eq_replicate_iff.2 ⟨rfl, fun c hc => beq_iff_eq.1 (h c hc)⟩

theorem exists_slashes_before (s : List Char) : ∃ n, s = List.replicate n '/' ++ s.dropWhile isSlash := by
  refine ⟨(s.takeWhile isSlash).length, ?_⟩
  rw [← eq_slashes fun c hc => List.mem_takeWhile_imp hc, List.takeWhile_append_dropWhile]

theorem exists_slashes_behind (s : List Char) : ∃ n, s = trimRight isSlash s ++ List.replicate n '/' := by
  obtain ⟨slashes, heq, hslashes⟩ := exists_trimRight isSlash s
  refine ⟨slashes.length, ?_⟩
  rw [← eq_slashes hslashes]
  exact heq

/-! ## Main statement -/

/-- How texts are grouped makes no difference to what they are joined to, and the empty text adds nothing on either
side. Two texts that are not empty have one slash between them: the first is a text that does not end with a slash,
and any slashes behind it, the second is a text that does not begin with one, and any slashes in front of it. -/
theorem joinUrl_laws :
    (∀ a b c, joinUrl (joinUrl a b) c = joinUrl a (joinUrl b c)) ∧
    (∀ s, joinUrl s "" = s ∧ joinUrl "" s = s) ∧
    ∀ base path, base ≠ "" → path ≠ "" →
      ∃ front back m n, base.toList = front ++ List.replicate m '/' ∧ front.getLast? ≠ some '/' ∧
        path.toList = List.replicate n '/' ++ back ∧ back.head? ≠ some '/' ∧
        (joinUrl base path).toList = front ++ '/' :: back := by
  refine ⟨joinUrl_assoc, fun s => ⟨joinUrl_empty s, empty_joinUrl s⟩, ?_⟩
  intro base path hbase hpath
  obtain ⟨m, hfront⟩ := exists_slashes_behind base.toList
  obtain ⟨n, hback⟩ := exists_slashes_before path.toList
  have hend : (trimRight isSlash base.toList).getLast? ≠ some '/' := getLast?_trimRight_ne isSlash rfl _
  have hbegin : (path.toList.dropWhile isSlash).head? ≠ some '/' := head?_dropWhile_ne isSlash rfl _
  refine ⟨_, _, m, n, hfront, hend, hback, hbegin, ?_⟩
  rw [joinUrl, String.toList_ofList]
  exact joinChars_of_ne_nil (mt String.toList_eq_nil_iff.1 hbase) (mt String.toList_eq_nil_iff.1 hpath)

/-- The slashes of a text that has nothing else go with both of its neighbours. -/
example : joinUrl (joinUrl "a/" "//") "/b" = "a/b" ∧ joinUrl "a/" (joinUrl "//" "/b") = "a/b" := by decide

end ApiDiscovery
