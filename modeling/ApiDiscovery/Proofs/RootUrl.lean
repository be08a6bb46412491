import ApiDiscovery.Proofs.Joining
import ApiDiscovery.Proofs.Site
import ApiDiscovery.Proofs.WrittenQuery

/-!
# Under the root

What a parameter puts into a path is text of its own choice: it can begin with slashes, and there can be an `@`, a
colon or a whole URL in it. None of it reaches the front of the request. All parts are joined to the root, where the
root is given (`requestUrl_eq_joinUrl`); one slash closes the root, and the front of a URL is read up to there
(`front_append`).

The root itself can be any text, also one that names no host. Then neither does a URL under it.

Main statement: `buildRequest_under_root`.
-/

namespace ApiDiscovery

open Text

namespace Url

/-! ## The front is read up to a slash -/

theorem dropWhile_append_of_head? {p : Char → Bool} {t : List Char} (h : ∀ c ∈ t.head?, p c = false) (s : List Char) :
    (s ++ t).dropWhile p = s.dropWhile p ++ t := by
  have ht : t.dropWhile p = t := by
    cases t with
    | nil => rfl
    | cons c t => exact List.dropWhile_cons_of_neg (Bool.eq_false_iff.1 (h c rfl))
  rw [List.dropWhile_append, ht]
  split
  next hs => rw [List.isEmpty_iff.1 hs, List.nil_append]
  next => rfl

theorem isSchemeChar_of_isAuthorityEnd {c : Char} (h : isAuthorityEnd c = true) : isSchemeChar c = false := by
  simp only [isAuthorityEnd, Bool.or_eq_true, beq_iff_eq] at h
  rcases h with (rfl | rfl) | rfl <;> rfl

theorem takeScheme_other {c : Char} (hcolon : c ≠ ':') (halpha : ¬ c.isAlpha = true) (s : List Char) :
    takeScheme (c :: s) = ([], c :: s) := by
  unfold takeScheme
  split
  next hcons =>
    cases hcons
    exact absurd rfl hcolon
  next hcons =>
    cases hcons
    exact if_neg halpha
  next hnil => cases hnil

theorem takeScheme_behind {t : List Char} (h : Behind t) : takeScheme t = ([], t) := by
  cases t with
  | nil => rfl
  | cons c t =>
      have hc := isSchemeChar_of_isAuthorityEnd (h c rfl)
      refine takeScheme_other (fun hcolon => ?_) (fun halpha => ?_) t
      · have hend := h c rfl
        rw [hcolon] at hend
        exact absurd hend (by decide)
      · rw [isSchemeChar, Char.isAlphanum, halpha] at hc
        cases hc

theorem takeScheme_letter {c : Char} (halpha : c.isAlpha = true) (s : List Char) :
    takeScheme (c :: s) =
      if ((c :: s).dropWhile isSchemeChar).head? = some ':' then
        ((c :: s).takeWhile isSchemeChar, ((c :: s).dropWhile isSchemeChar).tail)
      else ([], c :: s) := by
  rw [takeScheme_alpha halpha]
  split
  next hcolon =>
    rw [hcolon]
    rfl
  next hother =>
    rw [if_neg fun hhead => ?_]
    obtain ⟨rest, hrest⟩ := List.head?_eq_some_iff.1 hhead
    exact hother rest hrest

/-- What cannot stand in a scheme does not change it. -/
theorem takeScheme_append {t : List Char} (h : Behind t) (s : List Char) :
    takeScheme (s ++ t) = ((takeScheme s).1, (takeScheme s).2 ++ t) := by
  cases s with
  | nil => exact takeScheme_behind h
  | cons c s =>
      by_cases hcolon : c = ':'
      · rw [hcolon]
        rfl
      by_cases halpha : c.isAlpha = true
      · have hends : ∀ e ∈ t.head?, isSchemeChar e = false := fun e he => isSchemeChar_of_isAuthorityEnd (h e he)
        have htake := takeWhile_append_of_head? hends (c :: s)
        have hdrop := dropWhile_append_of_head? hends (c :: s)
        rw [List.cons_append] at htake hdrop ⊢
        rw [takeScheme_letter halpha, takeScheme_letter halpha, htake, hdrop]
        cases (c :: s).dropWhile isSchemeChar with
        | nil =>
            have hno : t.head? ≠ some ':' := fun hcolon => absurd (h ':' hcolon) (by decide)
            rw [List.nil_append, if_neg hno, if_neg (by exact nofun)]
            rfl
        | cons d rest =>
            rw [List.cons_append, List.head?_cons, List.head?_cons]
            split <;> rfl
      · rw [List.cons_append, takeScheme_other hcolon halpha, takeScheme_other hcolon halpha]
        rfl

theorem takeScheme_suffix (s : List Char) : (takeScheme s).2 <:+ s := by
  cases s with
  | nil => exact List.suffix_rfl
  | cons c s =>
      by_cases hcolon : c = ':'
      · rw [hcolon]
        exact List.suffix_cons ':' s
      by_cases halpha : c.isAlpha = true
      · rw [takeScheme_letter halpha]
        split
        · exact (List.tail_suffix _).trans (List.dropWhile_suffix _)
        · exact List.suffix_rfl
      · rw [takeScheme_other hcolon halpha]

/-- There is no authority without two slashes. -/
theorem takeAuthority_other {s : List Char} (h : ¬ ['/', '/'] <+: s) : (takeAuthority s).1 = [] := by
  by_contra hne
  obtain ⟨rest, hs, -⟩ := takeAuthority_eq hne
  exact h ⟨rest, hs.symm⟩

/-- What stands behind an authority does not change it, unless it brings the second of the two slashes in front. -/
theorem takeAuthority_append {s t : List Char} (h : Behind t) (ht : (takeAuthority t).1 = [])
    (hmeet : s = ['/'] → t.head? ≠ some '/') : (takeAuthority (s ++ t)).1 = (takeAuthority s).1 := by
  by_cases hs : ['/', '/'] <+: s
  · obtain ⟨rest, rfl⟩ := hs
    have hends : ∀ e ∈ t.head?, (!isAuthorityEnd e) = false := fun e he => by rw [h e he]; rfl
    exact takeWhile_append_of_head? hends rest
  rw [takeAuthority_other hs]
  match s with
  | [] => exact ht
  | [c] =>
      refine takeAuthority_other fun ⟨rest, hrest⟩ => ?_
      cases hrest
      exact hmeet rfl rfl
  | c :: d :: rest =>
      refine takeAuthority_other fun ⟨rest', hrest⟩ => hs ?_
      cases hrest
      exact ⟨rest, rfl⟩

theorem front_takeApart (s : List Char) :
    (takeApart s).front =
      ((takeScheme s).1, (takeUserinfo (takeAuthority (takeScheme s).2).1).1,
        takeHost (takeUserinfo (takeAuthority (takeScheme s).2).1).2) := rfl

/-- Scheme, userinfo, host and port of a URL do not change with what is appended behind a slash, a question mark or a
number sign. -/
theorem front_append {s t : List Char} (h : Behind t) (ht : (takeAuthority t).1 = [])
    (hmeet : s.getLast? = some '/' → t.head? ≠ some '/') :
    (takeApart (s ++ t)).front = (takeApart s).front := by
  have hauthority : (takeAuthority ((takeScheme s).2 ++ t)).1 = (takeAuthority (takeScheme s).2).1 := by
    refine takeAuthority_append h ht fun hslash => hmeet ?_
    obtain ⟨front, hfront⟩ := takeScheme_suffix s
    rw [← hfront, hslash]
    exact List.getLast?_concat
  rw [front_takeApart, front_takeApart, takeScheme_append h, hauthority]

/-! ## The front of a joined URL -/

/-- One slash alone begins no authority. -/
theorem takeAuthority_slash {t : List Char} (h : t.head? ≠ some '/') : (takeAuthority ('/' :: t)).1 = [] := by
  refine takeAuthority_other fun ⟨rest, hrest⟩ => h ?_
  cases hrest
  rfl

theorem takeAuthority_slashes {s : List Char} (h : ∀ c ∈ s, isSlash c = true) : (takeAuthority s).1 = [] := by
  by_contra hne
  obtain ⟨rest, rfl, hrest⟩ := takeAuthority_eq hne
  cases rest with
  | nil => exact hrest rfl
  | cons c rest =>
      have hc : c = '/' := beq_iff_eq.1 (h c (by simp))
      rw [hc] at hrest
      exact hrest rfl

/-- Slashes at the end of a URL are not part of its front. -/
theorem front_trimRight (s : List Char) : (takeApart (trimRight isSlash s)).front = (takeApart s).front := by
  obtain ⟨slashes, hs, hslashes⟩ := exists_trimRight isSlash s
  have hbehind : Behind slashes := fun c hc => by
    rw [beq_iff_eq.1 (hslashes c (List.mem_of_mem_head? hc))]
    rfl
  have hend : (trimRight isSlash s).getLast? ≠ some '/' := getLast?_trimRight_ne isSlash rfl s
  have hfront := front_append hbehind (takeAuthority_slashes hslashes) fun hlast => absurd hlast hend
  rw [← hs] at hfront
  exact hfront.symm

/-- Neither a path nor a query changes the front of the URL that they are put behind. -/
theorem front_joinChars {base path query : List Char} (hbase : base ≠ []) (hquery : ∀ c ∈ query.head?, c = '?') :
    (takeApart (joinChars base path ++ query)).front = (takeApart base).front := by
  have hbehind : Behind query := fun c hc => by
    rw [hquery c hc]
    rfl
  have hslash : query.head? ≠ some '/' := fun hhead => absurd (hquery '/' hhead) (by decide)
  by_cases hpath : path = []
  · rw [hpath, joinChars_nil]
    refine front_append hbehind (takeAuthority_other fun ⟨rest, hrest⟩ => hslash ?_) fun _ => hslash
    rw [← hrest]
    rfl
  · have hhead : (path.dropWhile isSlash ++ query).head? ≠ some '/' := by
      cases hdrop : path.dropWhile isSlash with
      | nil => exact hslash
      | cons c rest =>
          intro hc
          refine head?_dropWhile_ne isSlash (c := '/') rfl path ?_
          rw [hdrop]
          exact hc
    rw [joinChars_of_ne_nil hbase hpath, List.append_assoc, ← front_trimRight base]
    have hend : (trimRight isSlash base).getLast? ≠ some '/' := getLast?_trimRight_ne isSlash rfl base
    refine front_append (fun c hc => ?_) (takeAuthority_slash hhead) fun hlast => absurd hlast hend
    cases hc
    rfl

/-- What a URL takes from its front. -/
theorem ofRaw_front {r r' : Raw} {u u' : Url} (hfront : r'.front = r.front) (h : ofRaw r = .ok u)
    (h' : ofRaw r' = .ok u') :
    u'.scheme = u.scheme ∧ u'.userinfo = u.userinfo ∧ u'.host = u.host ∧ u'.port = u.port := by
  obtain ⟨hscheme, huserinfo, hhost, hport⟩ := by simpa only [Raw.front, Prod.mk.injEq] using hfront
  unfold ofRaw at h h'
  rw [hscheme, huserinfo, hhost, hport] at h'
  cases hnormal : Host.normalize r.host with
  | error f => rw [hnormal] at h; cases h
  | ok host =>
      rw [hnormal] at h h'
      simp only [pure_bind] at h h'
      obtain ⟨port, hnormalPort, h⟩ := bind_eq_ok.1 h
      obtain ⟨port', hnormalPort', h'⟩ := bind_eq_ok.1 h'
      obtain ⟨-, -, h⟩ := bind_eq_ok.1 h
      obtain ⟨-, -, h'⟩ := bind_eq_ok.1 h'
      cases hnormalPort.symm.trans hnormalPort'
      cases h
      cases h'
      exact ⟨rfl, rfl, rfl, rfl⟩

end Url

/-! ## The URL of a request -/

section

variable {d : Document} {given : Option String} {root : String}

/-- Under a root, all parts are joined to it. -/
theorem requestUrl_eq_joinUrl (h : (present given).or (present d.rootUrl) = some root) (path : String) :
    requestUrl d path given =
      joinUrl root (if path.startsWith "/" then path else joinUrl (d.servicePath.getD "") path) := by
  rw [requestUrl, h]
  dsimp only
  split
  · rfl
  · exact joinUrl_assoc _ _ _

theorem ne_empty_of_present {s : Option String} (h : present s = some root) : root ≠ "" := by
  obtain ⟨-, hkept⟩ := Option.filter_eq_some_iff.1 h
  intro hempty
  rw [hempty] at hkept
  exact absurd hkept (by decide)

theorem root_ne_empty (h : (present given).or (present d.rootUrl) = some root) : root ≠ "" := by
  rcases Option.or_eq_some_iff.1 h with hgiven | ⟨-, hown⟩
  · exact ne_empty_of_present hgiven
  · exact ne_empty_of_present hown

theorem present_some {s : String} (h : s ≠ "") : present (some s) = some s := by
  refine Option.filter_eq_some_iff.2 ⟨rfl, ?_⟩
  rw [Bool.not_eq_true', ← Bool.not_eq_true, String.isEmpty_iff]
  exact h

/-- It makes no difference whether a root is given or stands in the document. -/
theorem requestUrl_given (hroot : root ≠ "") (path : String) :
    requestUrl d path (some root) = requestUrl { d with rootUrl := some root } path none := by
  have hgiven : (present (some root)).or (present d.rootUrl) = some root := by rw [present_some hroot, Option.some_or]
  have hown : (present none).or (present (some root)) = some root := present_some hroot
  rw [requestUrl_eq_joinUrl hgiven path]
  exact (requestUrl_eq_joinUrl (d := { d with rootUrl := some root }) hown path).symm

/-- Without a given root, the base of the API is that of the document. -/
theorem requestUrl_apiBase (hgiven : present given = none) {path : String} (hpath : path.startsWith "/" = false) :
    requestUrl d path given = joinUrl d.apiBase path := by
  unfold requestUrl Document.apiBase
  rw [hgiven, Option.none_or]
  cases present d.rootUrl with
  | none => rfl
  | some root =>
      dsimp only
      rw [hpath]
      rfl

end

/-- Under a root, scheme, userinfo, host and port of a request are those of the root. -/
theorem front_fullUrl {r : Request} {root path : String} (hroot : root ≠ "") (hurl : r.url = joinUrl root path) :
    (Url.takeApart r.fullUrl.toList).front = (Url.takeApart root.toList).front := by
  obtain ⟨query, htext, hquery⟩ := toList_fullUrl r
  rw [htext, hurl, joinUrl, String.toList_ofList]
  exact Url.front_joinChars (mt String.toList_eq_nil_iff.1 hroot) hquery

/-! ## Main statement -/

/-- Where a root is given or named by the document, the URL of a request is the root or stands behind it with one slash
in between, and it leads to the host of the root; the path is joined to the root, one that is relative with the service
path in front of it. It makes no difference where the root comes from, and without a given one relative paths are
joined to the base of the API. -/
theorem buildRequest_under_root :
    (∀ (m : Method) (d : Document) (t : Table Value) (o : Option Options) (r : Request) (root : String),
      buildRequest m d t o = .ok r → (present (o.bind (·.rootUrl))).or (present d.rootUrl) = some root →
      (r.url = root ∨ trimRight isSlash root.toList ++ ['/'] <+: r.url.toList) ∧
      (∃ path, Template.expand (m.path.getD "") t.get? m.id = .ok (path, m.holes) ∧
        (path.startsWith "/" = false → r.url = joinUrl root (joinUrl (d.servicePath.getD "") path)) ∧
        (path.startsWith "/" = true → r.url = joinUrl root path)) ∧
      ∀ base u, Url.parse root = .ok base → Url.parse r.fullUrl = .ok u →
        u.scheme = base.scheme ∧ u.userinfo = base.userinfo ∧ u.host = base.host ∧ u.port = base.port) ∧
    (∀ (d : Document) (path root : String), root ≠ "" →
      requestUrl d path (some root) = requestUrl { d with rootUrl := some root } path none) ∧
    ∀ (d : Document) (path : String) (given : Option String), present given = none → path.startsWith "/" = false →
      requestUrl d path given = joinUrl d.apiBase path := by
  refine ⟨fun m d t o r root h hroot => ?_, fun d path root hroot => requestUrl_given hroot path,
    fun d path given hgiven hpath => requestUrl_apiBase hgiven hpath⟩
  have hne := root_ne_empty hroot
  obtain ⟨path, es, hpath, -, hr⟩ := buildRequest_ok h
  have hurl : r.url = requestUrl d path (o.bind (·.rootUrl)) := by rw [hr]
  rw [requestUrl_eq_joinUrl hroot] at hurl
  refine ⟨?_, ⟨path, hpath, fun hrelative => ?_, fun habsolute => ?_⟩, fun base u hbase hu => ?_⟩
  · rw [hurl]
    exact joinUrl_eq_or_prefix hne _
  · rw [hurl, hrelative]
    rfl
  · rw [hurl, habsolute]
    rfl
  · exact Url.ofRaw_front (front_fullUrl hne hurl) (Url.parse_ok hbase) (Url.parse_ok hu)

/-- A value that reads like a reference to another host, in a place where it is not encoded. -/
theorem buildRequest_under_root_updateNote :
    ∃ r u, buildRequest { updateNote with path := some "{+id}" } { rootedDocument with servicePath := some "v1/" }
        (Table.ofList [("id", .str "//b@c.example:80/x")]) none = .ok r ∧
      r.url = joinUrl "https://a.example/" "//b@c.example:80/x" ∧ Url.parse r.fullUrl = .ok u ∧
      u.userinfo = "" ∧ u.host = "a.example" ∧ u.port = none ∧
      requestUrl notesDocument "x" (some "https://b.example") =
        requestUrl { notesDocument with rootUrl := some "https://b.example" } "x" none ∧
      requestUrl notesDocument "x" (some "") = joinUrl notesDocument.apiBase "x" := by
  have hpath : (Template.expand "{+id}" (Table.ofList [("id", Value.str "//b@c.example:80/x")]).get?
      updateNote.id).toOption.map (·.1) = some "//b@c.example:80/x" := by decide +kernel
  have hroot : (present none).or (present rootedDocument.rootUrl) = some "https://a.example/" := rfl
  have hbase : Url.parse "https://a.example/" = .ok ⟨"https", "", "a.example", none, "/", none, none⟩ := rfl
  obtain ⟨hunder, hgiven, hown⟩ := buildRequest_under_root
  obtain ⟨r, h, hfull⟩ := exists_of_toOption_map (f := fun r => (Url.parse r.fullUrl).toOption.isSome) (b := true)
    (x := buildRequest { updateNote with path := some "{+id}" } { rootedDocument with servicePath := some "v1/" }
      (Table.ofList [("id", .str "//b@c.example:80/x")]) none) (by decide +kernel)
  obtain ⟨-, ⟨path, hexpand, -, hslash⟩, hsame⟩ := hunder _ _ _ _ r _ h hroot
  obtain rfl : path = "//b@c.example:80/x" :=
    Option.some.inj ((congrArg (fun x => x.toOption.map (·.1)) hexpand).symm.trans hpath)
  cases hu : Url.parse r.fullUrl with
  | error f =>
      rw [hu] at hfull
      cases hfull
  | ok u =>
      obtain ⟨-, huserinfo, hhost, hport⟩ := hsame _ u hbase hu
      exact ⟨r, u, h, hslash (by decide +kernel), hu, huserinfo, hhost, hport,
        hgiven notesDocument "x" "https://b.example" (by decide),
        hown notesDocument "x" (some "") rfl (by decide +kernel)⟩

end ApiDiscovery
