import ApiDiscovery.Proofs.Encoding
import ApiDiscovery.Url.Query

/-!
# Query strings are read back

A written name or value has neither of the characters that part pairs and their halves, so a query string falls
into its pairs again, and a pair into its halves. A half is read back since no plus sign in it stands for itself:
once plus signs are spaces, it is the percent encoding of the text in which spaces are kept.

Main statement: `parse_render`, for every list of pairs.
-/

namespace ApiDiscovery.Query

open Text

/-! ## Names and values -/

/-- The character that a query string has for a space. -/
def plusToSpace (c : Char) : Char := if c == '+' then ' ' else c

theorem map_plusToSpace {s : List Char} (h : '+' ∉ s) : s.map plusToSpace = s := by
  refine (List.map_congr_left fun c hc => ?_).trans (List.map_id s)
  have hne : c ≠ '+' := fun he => h (he ▸ hc)
  simp [plusToSpace, hne]

theorem encode_cons (c : Char) (s : List Char) :
    encode (c :: s) =
      (if c == ' ' then ['+'] else if Percent.isUnreserved c then [c] else Percent.char c) ++ encode s :=
  rfl

/-- Encoded texts have no character that is neither unreserved nor the percent or the plus sign. -/
theorem not_mem_encode {c : Char} (hu : Percent.isUnreserved c = false) (hpercent : c ≠ '%')
    (hplus : c ≠ '+') (s : List Char) : c ∉ encode s := by
  induction s with
  | nil => exact List.not_mem_nil
  | cons d rest ih =>
      rw [encode_cons, List.mem_append, not_or]
      refine ⟨?_, ih⟩
      by_cases hspace : d = ' '
      · simpa [hspace] using hplus
      · rw [if_neg (by simpa using hspace)]
        cases hd : Percent.isUnreserved d with
        | true =>
            intro hm
            obtain rfl := List.mem_singleton.1 hm
            rw [hu] at hd
            cases hd
        | false => exact (Percent.encoded_flatMap_byte _).not_mem hu hpercent

/-- With spaces for plus signs, an encoded text is the percent encoding that keeps spaces. -/
theorem map_plusToSpace_encode (s : List Char) :
    (encode s).map plusToSpace = Percent.encode (fun c => c == ' ' || Percent.isUnreserved c) s := by
  induction s with
  | nil => rfl
  | cons c rest ih =>
      rw [encode_cons, Percent.encode_cons, List.map_append, ih]
      congr 1
      by_cases hspace : c = ' '
      · subst hspace
        rfl
      · rw [if_neg (by simpa using hspace)]
        cases hc : Percent.isUnreserved c with
        | true =>
            have hne : '+' ∉ [c] := by
              intro hm
              obtain rfl := List.mem_singleton.1 hm
              exact absurd hc (by decide)
            simpa [hspace] using map_plusToSpace hne
        | false =>
            have hne : '+' ∉ Percent.char c :=
              (Percent.encoded_flatMap_byte _).not_mem (by decide) (by decide)
            simpa [hspace] using map_plusToSpace hne

theorem decode_encode (s : List Char) : decode (encode s) = s := by
  have hkeep := Percent.decodeBytes_encode (fun c => c == ' ' || Percent.isUnreserved c) (by decide)
    s []
  rw [List.append_nil, Percent.decodeBytes, List.append_nil, ← map_plusToSpace_encode] at hkeep
  show Utf8.decodeLossy (Percent.decodeBytes ((encode s).map plusToSpace)) = s
  rw [hkeep, Utf8.decodeLossy_encode]

/-! ## Pairs -/

theorem parsePair_pair (p : String × String) : parsePair (pair p) = p := by
  have hequals : ∀ c ∈ encode p.1.toList, (c != '=') = true := by
    intro c hc
    have hne : c ≠ '=' := fun he =>
      not_mem_encode (by decide) (by decide) (by decide) p.1.toList (he ▸ hc)
    simpa using hne
  unfold parsePair pair
  rw [List.takeWhile_append_of_pos hequals, List.dropWhile_append_of_pos hequals]
  simp [decode_encode]

theorem ampersand_not_mem_pair (p : String × String) : '&' ∉ pair p := by
  have hhalf : ∀ s, '&' ∉ encode s := not_mem_encode (by decide) (by decide) (by decide)
  unfold pair
  rw [List.mem_append, List.mem_cons, not_or, not_or]
  exact ⟨hhalf _, by decide, hhalf _⟩

/-! ## Parts -/

section

variable {sep : Char}

theorem splitAt_sep (sep : Char) (rest : List Char) :
    splitAt sep (sep :: rest) = [] :: splitAt sep rest := by
  simp [splitAt]

theorem splitAt_cons_of_ne {c : Char} {rest part : List Char} {parts : List (List Char)} (hc : c ≠ sep)
    (hrest : splitAt sep rest = part :: parts) : splitAt sep (c :: rest) = (c :: part) :: parts := by
  unfold splitAt at hrest ⊢
  rw [List.foldr_cons, hrest, if_neg (by simpa using hc)]

/-- What is in front of the first separator belongs to the first part. -/
theorem splitAt_append {p rest part : List Char} {parts : List (List Char)} (h : sep ∉ p)
    (hrest : splitAt sep rest = part :: parts) : splitAt sep (p ++ rest) = (p ++ part) :: parts := by
  induction p with
  | nil => exact hrest
  | cons c p ih =>
      rw [List.mem_cons, not_or] at h
      exact splitAt_cons_of_ne (Ne.symm h.1) (ih h.2)

theorem splitAt_intercalate {parts : List (List Char)} (hne : parts ≠ []) (h : ∀ p ∈ parts, sep ∉ p) :
    splitAt sep ([sep].intercalate parts) = parts := by
  induction parts with
  | nil => exact absurd rfl hne
  | cons p rest ih =>
      have hp : sep ∉ p := h p List.mem_cons_self
      cases rest with
      | nil =>
          have hlast : splitAt sep (p ++ []) = [p ++ []] := splitAt_append hp rfl
          rw [List.intercalate_singleton]
          simpa using hlast
      | cons q rest =>
          have hrest := ih (List.cons_ne_nil q rest) fun r hr => h r (List.mem_cons_of_mem _ hr)
          have hsep := splitAt_sep sep ([sep].intercalate (q :: rest))
          rw [hrest] at hsep
          rw [List.intercalate_cons_cons, List.append_assoc, List.singleton_append,
            splitAt_append hp hsep, List.append_nil]

end

/-! ## Main statement -/

/-- A query string is read back as the pairs that it was written from. -/
theorem parse_render (pairs : List (String × String)) : parse (render pairs) = pairs := by
  cases pairs with
  | nil => rfl
  | cons p rest =>
      have hsplit : splitAt '&' (render (p :: rest)).toList = (p :: rest).map pair := by
        rw [render, String.toList_ofList]
        refine splitAt_intercalate (List.cons_ne_nil _ _) fun q hq => ?_
        obtain ⟨p', -, rfl⟩ := List.mem_map.1 hq
        exact ampersand_not_mem_pair p'
      have hne : (render (p :: rest)).isEmpty = false := by
        refine Bool.eq_false_iff.2 fun h => ?_
        rw [String.isEmpty_iff.1 h] at hsplit
        -- A pair has its equals sign, so it is not the one empty part of the empty text.
        have hlength := congrArg (fun parts => (parts.map List.length).sum) hsplit
        simp [splitAt, pair] at hlength
        omega
      rw [parse, hne, if_neg (by simp), hsplit, List.map_map]
      refine (List.map_congr_left fun q _ => ?_).trans (List.map_id _)
      exact parsePair_pair q

end ApiDiscovery.Query
