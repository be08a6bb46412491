import ApiDiscovery.Proofs.NodeFaults
import ApiDiscovery.Proofs.ScanFaults

/-!
# What the scalars of a YAML text can fail for

A scalar whose tag is that of a truth value, a number or a date may have a text that denotes none. `Undenoted` says
of what kind the text is then, and which fault tells it:

| tag | the text | fault |
| :-- | :-- | :-- |
| `bool` | is none of the six words, in any case | `noTruthValue` |
| `int`, `float` | has nothing but underscores, and for `int` a sign | `emptyNumber` |
| `int` | has a part that is no whole number in its base | `notWhole` |
| `int` | has a part of more decimal digits than are converted | `tooLong` |
| `float` | has a part that is no number | `notNumber` |
| `float` | has more places of base sixty than a fractional number reaches | `tooLarge` |
| `timestamp` | does not have the form of a date | `notTimestamp` |
| `timestamp` | is a date with a field out of range | `calendar` |

The parts of a number are the whole of it, without its sign, or what stands between its colons. No other tag fails for
anything but the form. Main statements: `undenoted_of_scalarValue`, and `origin_of_parse` for whole texts.
-/

namespace ApiDiscovery.Yaml

open Number Text

/-- The characters of a number: underscores do not count. -/
def numeral (text : String) : List Char := text.toList.filter (· != '_')

/-- A scalar with this text denotes nothing under the tag, for this reason. -/
inductive Undenoted : Tag → String → Fault → Prop
  | noTruthValue {text : String} (h : truthWord? (lower text) = none) :
      Undenoted .bool text (.noTruthValue (lower text))
  | emptyWhole {text : String} (h : numeral text = [] ∨ ∃ sign, (sign = '+' ∨ sign = '-') ∧ numeral text = [sign]) :
      Undenoted .int text .emptyNumber
  | notWhole {text : String} {base : Nat} {part : List Char} (hpart : part <:+: numeral text)
      (h : wholeNumber? base part = .error .malformed) : Undenoted .int text (.notWhole base (String.ofList part))
  | tooLong {text : String} {base : Nat} {part : List Char} {n : Nat} (hpart : part <:+: numeral text)
      (h : wholeNumber? base part = .error (.tooLong n)) : Undenoted .int text (.tooLong n)
  | emptyNumber {text : String} (h : lowerFrom false (numeral text) = []) : Undenoted .float text .emptyNumber
  | notNumber {text : String} {part : List Char} (hpart : part <:+: lowerFrom false (numeral text))
      (h : Double.read? (String.ofList part) = none) : Undenoted .float text (.notNumber (String.ofList part))
  | tooLarge {text : String} (h : ':' ∈ lowerFrom false (numeral text)) : Undenoted .float text .tooLarge
  | notTimestamp {text : String} (h : timestampParts? text.toList = none) : Undenoted .timestamp text .notTimestamp
  | noDay {text : String} {p : TimestampParts} {f : CalendarFault} (hparts : timestampParts? text.toList = some p)
      (h : Date.make? (decimalDigits p.year) (decimalDigits p.month) (decimalDigits p.day) = .error f) :
      Undenoted .timestamp text (.calendar f)
  | noMoment {text : String} {p : TimestampParts} {offset : Option Int} {f : CalendarFault}
      (hparts : timestampParts? text.toList = some p)
      (h : Timestamp.make? (decimalDigits p.year) (decimalDigits p.month) (decimalDigits p.day) (decimalDigits p.hour)
        (decimalDigits p.minute) (decimalDigits p.second) (millionths p.fraction) offset = .error f) :
      Undenoted .timestamp text (.calendar f)

/-! ## Parts of numbers -/

theorem splitColons_cons (c : Char) (cs : List Char) :
    splitColons (c :: cs) =
      if c == ':' then [] :: splitColons cs
      else
        match splitColons cs with
        | [] => [[c]]
        | p :: rest => (c :: p) :: rest := rfl

/-- The first piece between colons begins the text, the others stand in it. -/
theorem infix_of_splitColons {cs : List Char} :
    ∃ p ps, splitColons cs = p :: ps ∧ p <+: cs ∧ ∀ q ∈ ps, q <:+: cs := by
  induction cs with
  | nil => exact ⟨[], [], rfl, List.prefix_rfl, nofun⟩
  | cons c cs ih =>
      obtain ⟨p, ps, hsplit, hp, hps⟩ := ih
      have hlater (q : List Char) (hq : q ∈ ps) : q <:+: c :: cs := (hps q hq).trans (List.suffix_cons c cs).isInfix
      rw [splitColons_cons, hsplit]
      split
      · refine ⟨[], p :: ps, rfl, List.nil_prefix, ?_⟩
        rintro q hq
        rcases List.mem_cons.1 hq with rfl | hq
        · exact hp.isInfix.trans (List.suffix_cons c cs).isInfix
        · exact hlater q hq
      · exact ⟨c :: p, ps, rfl, List.cons_prefix_cons.2 ⟨rfl, hp⟩, hlater⟩

theorem infix_of_mem_splitColons {cs part : List Char} (h : part ∈ splitColons cs) : part <:+: cs := by
  obtain ⟨p, ps, hsplit, hp, hps⟩ := @infix_of_splitColons cs
  rw [hsplit] at h
  rcases List.mem_cons.1 h with rfl | h
  · exact hp.isInfix
  · exact hps part h

/-- A part that is no whole number in a base, or a decimal one of too many digits. -/
theorem undenoted_of_wholeIn {text : String} {base : Nat} {part : List Char} {f : Fault}
    (hpart : part <:+: numeral text) (h : wholeIn base part = .error f) : Undenoted .int text f := by
  rw [wholeIn] at h
  split at h
  next => cases h
  next hwhole =>
    cases h
    exact .notWhole hpart hwhole
  next n hwhole =>
    cases h
    exact .tooLong hpart hwhole

theorem undenoted_of_numberIn {text : String} {part : List Char} {f : Fault}
    (hpart : part <:+: lowerFrom false (numeral text)) (h : numberIn part = .error f) : Undenoted .float text f := by
  rw [numberIn] at h
  split at h
  next => cases h
  next hread =>
    cases h
    exact .notNumber hpart hread

/-- Adding up the places of base sixty fails only for one that is too large. -/
theorem foldlM_addPlace_eq_error {places : List Double} {sum : Double × Nat} {f : Fault}
    (h : places.foldlM addPlace sum = .error f) : f = .tooLarge := by
  induction places generalizing sum with
  | nil => cases h
  | cons place places ih =>
      rw [List.foldlM_cons] at h
      rcases bind_eq_error.1 h with h | ⟨sum', -, h⟩
      · rw [addPlace] at h
        split at h
        · cases h
        · cases h
          rfl
      · exact ih h

/-- What is left of a number without its sign ends it, and is nothing only behind a sign. -/
theorem suffix_of_unsigned {cs : List Char} {first : Char} (h : cs.head? = some first) :
    (if first == '+' || first == '-' then cs.drop 1 else cs) <:+ cs ∧
      ((if first == '+' || first == '-' then cs.drop 1 else cs) = [] →
        ∃ sign, (sign = '+' ∨ sign = '-') ∧ cs = [sign]) := by
  obtain ⟨rest, rfl⟩ := List.head?_eq_some_iff.1 h
  split
  next hsign =>
    rw [Bool.or_eq_true, beq_iff_eq, beq_iff_eq] at hsign
    refine ⟨List.drop_suffix 1 _, fun hrest => ⟨first, hsign, ?_⟩⟩
    rw [List.drop_succ_cons, List.drop_zero] at hrest
    rw [hrest]
  next => exact ⟨List.suffix_rfl, nofun⟩

/-- A computation fails where the first of its two steps does, if the second only makes something of the result. -/
theorem error_of_bind_pure {x : Except Fault α} {g : α → β} {f : Fault} (h : (x >>= fun a => pure (g a)) = .error f) :
    x = .error f := by
  rcases bind_eq_error.1 h with h | ⟨a, -, h⟩
  · exact h
  · cases h

/-! ## Scalars -/

theorem undenoted_of_wholeValue {text : String} {f : Fault} (h : wholeValue text.toList = .error f) :
    Undenoted .int text f := by
  rw [wholeValue] at h
  rw [← numeral] at h
  split at h
  next first hfirst =>
    obtain ⟨hbody, hempty⟩ := suffix_of_unsigned hfirst
    dsimp only at h
    generalize (if first == '+' || first == '-' then (numeral text).drop 1 else numeral text) = body
      at h hbody hempty
    split at h
    next ds =>
      have hds : ds <:+ '0' :: 'b' :: ds := ⟨['0', 'b'], rfl⟩
      exact undenoted_of_wholeIn (hds.trans hbody).isInfix (error_of_bind_pure h)
    next ds =>
      have hds : ds <:+ '0' :: 'x' :: ds := ⟨['0', 'x'], rfl⟩
      exact undenoted_of_wholeIn (hds.trans hbody).isInfix (error_of_bind_pure h)
    next => cases h
    next => exact undenoted_of_wholeIn hbody.isInfix (error_of_bind_pure h)
    next =>
      cases h
      exact .emptyWhole (.inr (hempty rfl))
    next =>
      split at h
      · rcases bind_eq_error.1 h with h | ⟨places, -, h⟩
        · obtain ⟨part, hpart, hf⟩ := exists_of_mapM_error h
          exact undenoted_of_wholeIn ((infix_of_mem_splitColons hpart).trans hbody.isInfix) hf
        · cases h
      · exact undenoted_of_wholeIn hbody.isInfix (error_of_bind_pure h)
  next hnone =>
    cases h
    exact .emptyWhole (.inl (List.head?_eq_none_iff.1 (Option.eq_none_iff_forall_ne_some.2 hnone)))

theorem undenoted_of_numberValue {text : String} {f : Fault} (h : numberValue text.toList = .error f) :
    Undenoted .float text f := by
  rw [numberValue] at h
  rw [← numeral] at h
  dsimp only at h
  generalize hcs : lowerFrom false (numeral text) = cs at h
  split at h
  next first hfirst =>
    obtain ⟨hbody, -⟩ := suffix_of_unsigned hfirst
    generalize (if first == '+' || first == '-' then cs.drop 1 else cs) = body at h hbody
    split at h
    · cases h
    split at h
    · cases h
    split at h
    next hcolon =>
      rcases bind_eq_error.1 h with h | ⟨places, -, h⟩
      · obtain ⟨part, hpart, hf⟩ := exists_of_mapM_error h
        have hwithin : part <:+: cs := (infix_of_mem_splitColons hpart).trans hbody.isInfix
        exact undenoted_of_numberIn (hcs ▸ hwithin) hf
      · rcases bind_eq_error.1 h with h | ⟨sum, -, h⟩
        · have hmem : ':' ∈ cs := hbody.subset (List.contains_iff_mem.1 hcolon)
          rw [foldlM_addPlace_eq_error h]
          exact .tooLarge (hcs ▸ hmem)
        · cases h
    next => exact undenoted_of_numberIn (hcs ▸ hbody.isInfix) (error_of_bind_pure h)
  next hnone =>
    cases h
    have hnil : cs = [] := List.head?_eq_none_iff.1 (Option.eq_none_iff_forall_ne_some.2 hnone)
    exact .emptyNumber (hcs.trans hnil)

theorem undenoted_of_timestampValue {text : String} {f : Fault} (h : timestampValue text.toList = .error f) :
    Undenoted .timestamp text f := by
  rw [timestampValue] at h
  split at h
  next p hparts =>
    dsimp only at h
    split at h
    · split at h
      next => cases h
      next hday =>
        cases h
        exact .noDay hparts hday
    · split at h
      next => cases h
      next hmoment =>
        cases h
        exact .noMoment hparts hmoment
  next hnone =>
    cases h
    exact .notTimestamp (Option.eq_none_iff_forall_ne_some.2 hnone)

/-- A scalar that denotes nothing fails for its form, or its text denotes nothing under the tag. -/
theorem undenoted_of_scalarValue {tag : Tag} {text : String} {f : Fault} (h : scalarValue tag text = .error f) :
    f.IsMalformed ∨ Undenoted tag text f := by
  cases tag with
  | null => cases h
  | bool =>
      rw [scalarValue.eq_def] at h
      dsimp only at h
      split at h
      next => cases h
      next hword =>
        cases h
        exact .inr (.noTruthValue hword)
  | int => exact .inr (undenoted_of_wholeValue (map_eq_error.1 h))
  | float => exact .inr (undenoted_of_numberValue (map_eq_error.1 h))
  | binary =>
      rw [scalarValue.eq_def] at h
      dsimp only at h
      split at h
      next => cases h
      next =>
        cases h
        exact .inl (Fault.isMalformed _)
  | timestamp => exact .inr (undenoted_of_timestampValue h)
  | str => cases h
  | _ =>
      cases h
      exact .inl (Fault.isMalformed _)

/-! ## Nodes -/

/-- Something in the nodes of a text denotes nothing: the text of a scalar under its tag; the text of a scalar that a
mapping has for its default, under the tag of the mapping; a date that is written as a mapping; or a default that leads
back to its mapping. -/
inductive Graph.Undenoted (g : Graph) : Fault → Prop
  | scalar {i : NodeId} {tag : Tag} {text : String} {f : Fault} (hi : g.node? i = some (.scalar tag text))
      (h : Yaml.Undenoted tag text f) : Undenoted g f
  | default {i j : NodeId} {tag t : Tag} {entries : List NodeEntry} {text : String} {f : Fault}
      (hi : g.node? i = some (.mapping tag entries)) (hj : g.node? j = some (.scalar t text))
      (h : Yaml.Undenoted tag text f) : Undenoted g f
  | date {i : NodeId} {entries : List NodeEntry} (hi : g.node? i = some (.mapping .timestamp entries)) :
      Undenoted g .timestampMapping
  | endless {i : NodeId} {tag : Tag} {entries : List NodeEntry} (hi : g.node? i = some (.mapping tag entries))
      (htag : tag.isCollection = false) : Undenoted g .endlessDefault

/-- Texts fail for nothing. -/
theorem Undenoted.tag_ne_str {tag : Tag} {text : String} {f : Fault} (h : Undenoted tag text f) : tag ≠ .str := by
  cases h <;> exact nofun

/-- A tag that is not the one of texts is the one that stood from the beginning. -/
theorem Tag.Follows.eq {t₀ t : Tag} (h : t₀.Follows t) (ht : t ≠ .str) : t₀ = t := by
  rcases h with h | ⟨-, h⟩
  · exact h.symm
  · exact absurd h ht

theorem Tag.Follows.isCollection {t₀ t : Tag} (h : t₀.Follows t) : t.isCollection = t₀.isCollection := by
  rcases h with rfl | ⟨rfl, rfl⟩
  · rfl
  · rfl

namespace Graph

variable {g₀ g : Graph}

/-- The text that a default leads to is that of a scalar. -/
theorem exists_of_scalarText (h : g₀.Follows g) {fuel : Nat} {i : NodeId} {text : String}
    (htext : g.scalarText fuel i = .ok text) : ∃ j t, g₀.node? j = some (.scalar t text) := by
  induction fuel generalizing i with
  | zero => cases htext
  | succ fuel ih =>
      rw [scalarText] at htext
      split at htext
      next t text' hi =>
        cases htext
        obtain ⟨n₀, hn₀, hfollows⟩ := h i _ hi
        cases hfollows with
        | scalar => exact ⟨i, _, hn₀⟩
      next =>
        split at htext
        · exact ih htext
        · cases htext
      next => cases htext

theorem scalarText_eq_error {fuel : Nat} {i : NodeId} {f : Fault} (h : g.scalarText fuel i = .error f) :
    f.IsMalformed ∨ f = .endlessDefault := by
  induction fuel generalizing i with
  | zero =>
      cases h
      exact .inr rfl
  | succ fuel ih =>
      rw [scalarText] at h
      split at h
      · cases h
      · split at h
        · exact ih h
        · cases h
          exact .inl (Fault.isMalformed _)
      · cases h
        exact .inl (Fault.isMalformed _)

/-- The text of a scalar is its own, and that of a sequence is refused for the form. -/
theorem scalarText_scalar {fuel : Nat} {i : NodeId} {t : Tag} {text : String}
    (hi : g.node? i = some (.scalar t text)) : g.scalarText (fuel + 1) i = .ok text := by
  rw [scalarText, hi]

theorem scalarText_sequence {fuel : Nat} {i : NodeId} {t : Tag} {items : List NodeId}
    (hi : g.node? i = some (.sequence t items)) : g.scalarText (fuel + 1) i = refuse .scalarExpected := by
  rw [scalarText, hi]

theorem undenoted_of_leaf (h : g₀.Follows g) {i : NodeId} {n : Node} {f : Fault} (hi : g.node? i = some n)
    (htag : n.tag.isCollection = false) (hleaf : g.leaf i n = .error f) : f.IsMalformed ∨ g₀.Undenoted f := by
  rw [leaf] at hleaf
  split at hleaf
  · exact .inl ⟨_, (Except.error.inj hleaf).symm⟩
  · exact .inl ⟨_, (Except.error.inj hleaf).symm⟩
  · exact .inl ⟨_, (Except.error.inj hleaf).symm⟩
  obtain ⟨n₀, hn₀, hfollows⟩ := h i n hi
  rcases bind_eq_error.1 hleaf with htext | ⟨text, htext, hvalue⟩
  · cases hfollows with
    | scalar =>
        rw [scalarText_scalar hi] at htext
        cases htext
    | sequence =>
        rw [scalarText_sequence hi] at htext
        exact .inl ⟨_, (Except.error.inj htext).symm⟩
    | mapping ht =>
        rcases scalarText_eq_error htext with hform | rfl
        · exact .inl hform
        · exact .inr (.endless hn₀ (ht.isCollection.symm.trans htag))
  · split at hvalue
    next heq =>
      cases hvalue
      cases hfollows with
      | mapping ht =>
          cases heq
          cases ht.eq nofun
          exact .inr (.date hn₀)
    next =>
      rcases undenoted_of_scalarValue hvalue with hform | hu
      · exact .inl hform
      · right
        cases hfollows with
        | scalar ht =>
            rw [scalarText_scalar hi] at htext
            cases htext
            cases ht.eq hu.tag_ne_str
            exact .scalar hn₀ hu
        | sequence =>
            rw [scalarText_sequence hi] at htext
            cases htext
        | mapping ht =>
            obtain ⟨j, t, hj⟩ := exists_of_scalarText h htext
            cases ht.eq hu.tag_ne_str
            exact .default hn₀ hj hu

end Graph

/-! ## Texts -/

/-- Where a fault that is not one of form comes from: the characters of the text, or its nodes. -/
inductive Origin (text : String) (f : Fault) : Prop
  | scanned (h : ScanFault text.toList f)
  | node {g : Graph} (hnodes : Graph.ofText? text = .ok (some g)) (h : g.Undenoted f)

/-- A text that is not refused for its form is refused for something in it that is not one of the values which its form
announces. -/
theorem origin_of_parse {text : String} {f : Fault} (h : parse text = .error f) (hf : ¬ f.IsMalformed) :
    Origin text f := by
  rw [parse] at h
  rcases bind_eq_error.1 h with hnodes | ⟨g?, hnodes, h⟩
  · rcases Graph.fault_of_ofText hnodes with hform | hscan
    · exact absurd hform hf
    · exact .scanned (scanFault_of_scan (Prod.ext rfl hscan))
  · cases g? with
    | none => cases h
    | some g =>
        rcases Graph.fault_of_load h with hform | ⟨g', i, n, hfollows, hi, htag, hleaf⟩
        · exact absurd hform hf
        · exact .node hnodes ((Graph.undenoted_of_leaf hfollows hi htag hleaf).resolve_left hf)

end ApiDiscovery.Yaml
