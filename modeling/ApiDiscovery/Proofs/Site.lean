import ApiDiscovery.Proofs.Destination
import ApiDiscovery.Url
import Mathlib.Data.List.DropRight

/-!
# Where a URL leads

A URL that names a host under a scheme begins with both, up to the first slash, question mark or number sign
behind the host's two slashes: its `Site`. Whatever stands behind the site changes neither scheme nor host
(`parse_site`), and all paths that are joined to the URL come to stand there (`toList_requestUrl`).
-/

namespace ApiDiscovery

open Text

namespace Url

/-! ## The front of a URL -/

def isSchemeChar (c : Char) : Bool := c.isAlphanum || c == '+' || c == '.' || c == '-'

/-- The front of a URL that names a host under a scheme, as it is written. -/
structure Site where
  scheme : List Char
  authority : List Char
  begins : ∃ c ∈ scheme.head?, c.isAlpha = true
  schemeChars : ∀ c ∈ scheme, isSchemeChar c = true
  authorityChars : ∀ c ∈ authority, isAuthorityEnd c = false
  named : authority ≠ []

def Site.text (s : Site) : List Char := s.scheme ++ ':' :: '/' :: '/' :: s.authority

/-- A character of a path; question marks and number signs end it. -/
def inPath (c : Char) : Bool := c != '?' && c != '#'

/-- What can stand behind an authority. -/
def Behind (rest : List Char) : Prop := ∀ c ∈ rest.head?, isAuthorityEnd c = true

/-- The path of a URL as it is written. -/
def writtenPath (s : String) : List Char := (takeApart s.toList).path

/-- The components of a URL up to its path. -/
def Raw.front (r : Raw) : List Char × List Char × List Char × List Char :=
  (r.scheme, r.userinfo, r.host, r.port)

theorem Behind.append {rest query : List Char} (h : Behind rest) (hquery : Behind query) : Behind (rest ++ query) := by
  cases rest with
  | nil => exact hquery
  | cons c t => exact h

/-- Behind an authority, a path begins with a slash. -/
theorem Behind.head?_path {rest : List Char} (h : Behind rest) : ∀ c ∈ (rest.takeWhile inPath).head?, c = '/' := by
  cases rest with
  | nil => exact nofun
  | cons c t =>
      have hc := h c rfl
      simp only [isAuthorityEnd, Bool.or_eq_true, beq_iff_eq] at hc
      rcases hc with (rfl | rfl) | rfl
      · intro c hc
        cases hc
        rfl
      · exact nofun
      · exact nofun

theorem takeWhile_authority {authority rest : List Char} (h : ∀ c ∈ authority, isAuthorityEnd c = false)
    (hrest : Behind rest) :
    (authority ++ rest).takeWhile (!isAuthorityEnd ·) = authority ∧
      (authority ++ rest).dropWhile (!isAuthorityEnd ·) = rest := by
  have hauthority : ∀ c ∈ authority, (!isAuthorityEnd c) = true := fun c hc => by rw [h c hc]; rfl
  rw [List.takeWhile_append_of_pos hauthority, List.dropWhile_append_of_pos hauthority]
  cases rest with
  | nil => simp
  | cons c rest => simp [hrest c rfl]

theorem takeScheme_alpha {c : Char} (h : c.isAlpha = true) (rest : List Char) :
    takeScheme (c :: rest) =
      match (c :: rest).dropWhile isSchemeChar with
      | ':' :: behind => ((c :: rest).takeWhile isSchemeChar, behind)
      | _ => ([], c :: rest) := by
  unfold takeScheme
  split
  · next hcons =>
      cases hcons
      exact absurd h (by decide)
  · next hcons =>
      cases hcons
      rw [if_pos h]
      rfl
  · next hnil => cases hnil

/-- A scheme stands in front of a colon. -/
theorem takeScheme_eq {s scheme rest : List Char} (h : takeScheme s = (scheme, rest)) (hne : scheme ≠ []) :
    s = scheme ++ ':' :: rest ∧ (∃ c ∈ scheme.head?, c.isAlpha = true) ∧
      ∀ c ∈ scheme, isSchemeChar c = true := by
  cases s with
  | nil =>
      cases h
      exact absurd rfl hne
  | cons c t =>
      by_cases hc : c.isAlpha = true
      · rw [takeScheme_alpha hc] at h
        split at h
        · next behind hdrop =>
            cases h
            have hfirst : isSchemeChar c = true := by simp [isSchemeChar, Char.isAlphanum, hc]
            refine ⟨?_, ⟨c, ?_, hc⟩, fun d hd => List.mem_takeWhile_imp hd⟩
            · rw [← hdrop, List.takeWhile_append_dropWhile]
            · rw [List.takeWhile_cons_of_pos hfirst]
              rfl
        · cases h
          exact absurd rfl hne
      · unfold takeScheme at h
        split at h
        · cases h
          exact absurd rfl hne
        · next hcons =>
            cases hcons
            rw [if_neg hc] at h
            cases h
            exact absurd rfl hne
        · next hnil => cases hnil

namespace Site

variable (s : Site)

theorem takeScheme_text (rest : List Char) :
    takeScheme (s.text ++ rest) = (s.scheme, '/' :: '/' :: (s.authority ++ rest)) := by
  obtain ⟨c, hhead, hc⟩ := s.begins
  obtain ⟨cs, hscheme⟩ := List.head?_eq_some_iff.1 hhead
  have htext : s.text ++ rest = s.scheme ++ ':' :: '/' :: '/' :: (s.authority ++ rest) := by
    simp [text]
  have htake : (s.text ++ rest).takeWhile isSchemeChar = s.scheme := by
    rw [htext, List.takeWhile_append_of_pos s.schemeChars, List.takeWhile_cons_of_neg (by decide),
      List.append_nil]
  have hdrop : (s.text ++ rest).dropWhile isSchemeChar = ':' :: '/' :: '/' :: (s.authority ++ rest) := by
    rw [htext, List.dropWhile_append_of_pos s.schemeChars, List.dropWhile_cons_of_neg (by decide)]
  have hcons : s.text ++ rest = c :: (cs ++ ':' :: '/' :: '/' :: (s.authority ++ rest)) := by
    rw [htext, hscheme, List.cons_append]
  rw [hcons] at htake hdrop ⊢
  rw [takeScheme_alpha hc, hdrop, htake]
  rfl

/-- All of the components of a URL that stand in its site. -/
theorem takeApart_text {rest : List Char} (h : Behind rest) :
    (takeApart (s.text ++ rest)).front = (takeApart s.text).front ∧
      (takeApart (s.text ++ rest)).scheme = s.scheme ∧
      (takeApart (s.text ++ rest)).path = rest.takeWhile inPath := by
  have hnil := s.takeScheme_text []
  rw [List.append_nil, List.append_nil] at hnil
  obtain ⟨htake, hdrop⟩ := takeWhile_authority s.authorityChars h
  obtain ⟨htake', hdrop'⟩ := takeWhile_authority s.authorityChars (show Behind [] from nofun)
  rw [List.append_nil] at htake' hdrop'
  refine ⟨?_, ?_, ?_⟩
  · unfold takeApart Raw.front
    simp only [s.takeScheme_text, hnil, htake, htake']
  · unfold takeApart
    simp only [s.takeScheme_text]
  · unfold takeApart
    simp only [s.takeScheme_text, hdrop]
    rfl

end Site

/-- The authority behind a scheme, with what follows it. -/
def takeAuthority : List Char → List Char × List Char
  | '/' :: '/' :: rest => (rest.takeWhile (!isAuthorityEnd ·), rest.dropWhile (!isAuthorityEnd ·))
  | rest => ([], rest)

theorem takeAuthority_eq {s : List Char} (h : (takeAuthority s).1 ≠ []) :
    ∃ rest, s = '/' :: '/' :: rest ∧ rest.takeWhile (!isAuthorityEnd ·) ≠ [] := by
  unfold takeAuthority at h
  split at h
  · exact ⟨_, rfl, h⟩
  · exact absurd rfl h

/-- What is in front of the last `@` of an authority, and the rest. -/
def takeUserinfo (authority : List Char) : List Char × List Char :=
  match splitLast '@' authority with
  | some (user, rest) => (user, rest)
  | none => ([], authority)

theorem host_of_no_authority {s : List Char} (h : (takeAuthority (takeScheme s).2).1 = []) :
    (takeApart s).host = [] := by
  show (takeHost (takeUserinfo (takeAuthority (takeScheme s).2).1).2).1 = []
  rw [h]
  rfl

/-- A URL with a scheme and a host has a site. -/
theorem exists_site {s : List Char} (hscheme : (takeApart s).scheme ≠ []) (hhost : (takeApart s).host ≠ []) :
    ∃ (site : Site) (rest : List Char), s = site.text ++ rest ∧ Behind rest := by
  cases hs : takeScheme s with
  | mk scheme behind =>
      have hauthority : (takeAuthority behind).1 ≠ [] := fun hnil =>
        hhost (host_of_no_authority (by rw [hs, hnil]))
      obtain ⟨rest, rfl, hnamed⟩ := takeAuthority_eq hauthority
      unfold takeApart at hscheme
      simp only [hs] at hscheme
      obtain ⟨htext, hbegins, hchars⟩ := takeScheme_eq hs hscheme
      refine ⟨⟨scheme, rest.takeWhile (!isAuthorityEnd ·), hbegins, hchars, fun c hc => ?_, hnamed⟩,
        rest.dropWhile (!isAuthorityEnd ·), ?_, fun c hc => ?_⟩
      · simpa using List.mem_takeWhile_imp hc
      · rw [htext, Site.text, List.append_assoc, List.cons_append, List.cons_append, List.cons_append,
          List.takeWhile_append_dropWhile]
      · have hend := List.head?_dropWhile_not (!isAuthorityEnd ·) rest
        rw [Option.mem_def.1 hc] at hend
        simpa using hend

/-! ## Components in normal form -/

/-- What the components of a URL are made of. -/
theorem ofRaw_ok {r : Raw} {u : Url} (h : ofRaw r = .ok u) :
    ∃ host, Host.normalize r.host = .ok host ∧ u.host = String.ofList host ∧
      u.scheme = String.ofList (r.scheme.map Char.toLower) ∧
      (r.scheme ≠ [] → u.path.toList = Percent.encode keptInPath (normalizePath r.path)) := by
  unfold ofRaw at h
  cases hhost : Host.normalize r.host with
  | error f => rw [hhost] at h; cases h
  | ok host =>
      rw [hhost] at h
      simp only [pure_bind] at h
      obtain ⟨port, -, h⟩ := bind_eq_ok.1 h
      obtain ⟨-, -, h⟩ := bind_eq_ok.1 h
      cases h
      refine ⟨host, rfl, rfl, rfl, fun hscheme => ?_⟩
      have hnormal : (!r.scheme.isEmpty) = true := by simpa using hscheme
      rw [String.toList_ofList, hnormal, Bool.true_or, if_pos rfl]

theorem parse_ok {s : String} {u : Url} (h : parse s = .ok u) : ofRaw (takeApart s.toList) = .ok u := by
  unfold parse at h
  split at h
  · cases h
  · split at h
    · cases h
    · exact h

/-- The site of a URL that names a host under a scheme. -/
theorem site_of_isAbsolute {s : String} {u : Url} (h : parse s = .ok u) (habsolute : u.isAbsolute = true) :
    ∃ (site : Site) (rest : List Char), s.toList = site.text ++ rest ∧ Behind rest := by
  obtain ⟨host, hhost, huhost, huscheme, -⟩ := ofRaw_ok (parse_ok h)
  obtain ⟨hscheme, hname⟩ := Bool.and_eq_true_iff.1 habsolute
  refine exists_site (fun hnil => ?_) (fun hnil => ?_)
  · rw [huscheme, hnil] at hscheme
    exact absurd hscheme (by decide)
  · rw [hnil] at hhost
    cases hhost
    rw [huhost] at hname
    exact absurd hname (by decide)

/-- Two URLs with one site lead to one host; each has the path that stands behind the site, in normal form. -/
theorem parse_site {site : Site} {rest rest' : List Char} {s s' : String} {u u' : Url}
    (hs : s.toList = site.text ++ rest) (hs' : s'.toList = site.text ++ rest') (hrest : Behind rest)
    (hrest' : Behind rest') (h : parse s = .ok u) (h' : parse s' = .ok u') :
    u'.scheme = u.scheme ∧ u'.host = u.host ∧
      u'.path.toList = Percent.encode keptInPath (normalizePath (rest'.takeWhile inPath)) := by
  have h := parse_ok h
  have h' := parse_ok h'
  rw [hs] at h
  rw [hs'] at h'
  obtain ⟨hfront, hscheme, -⟩ := site.takeApart_text hrest
  obtain ⟨hfront', hscheme', hpath'⟩ := site.takeApart_text hrest'
  obtain ⟨host, hhost, huhost, huscheme, -⟩ := ofRaw_ok h
  obtain ⟨host', hhost', huhost', huscheme', hupath'⟩ := ofRaw_ok h'
  obtain ⟨-, -, hsame, -⟩ := by simpa only [Raw.front, Prod.mk.injEq] using hfront'.trans hfront.symm
  rw [hsame, hhost] at hhost'
  cases hhost'
  rw [hpath', hscheme'] at hupath'
  refine ⟨?_, huhost'.trans huhost.symm, hupath' fun hnil => ?_⟩
  · rw [huscheme', huscheme, hscheme, hscheme']
  · obtain ⟨c, hc, -⟩ := site.begins
    rw [hnil] at hc
    cases hc

/-! ## Joined paths -/

/-- What stands behind a site once a path is joined to the URL. -/
def joined (rest path : List Char) : List Char :=
  if path.isEmpty then rest else trimRight isSlash rest ++ '/' :: path.dropWhile isSlash

theorem joinChars_text (site : Site) (rest path : List Char) :
    joinChars (site.text ++ rest) path = site.text ++ joined rest path := by
  have hne : (site.text ++ rest).isEmpty = false := by simp [Site.text]
  -- A site ends in its authority, which has no slash.
  have htrim : trimRight isSlash (site.text ++ rest) = site.text ++ trimRight isSlash rest := by
    have hsite : site.text.reverse.dropWhile isSlash = site.text.reverse := by
      obtain ⟨front, c, hc⟩ := List.eq_nil_or_concat site.authority |>.resolve_left site.named
      have hslash : isSlash c ≠ true := by
        have hend := site.authorityChars c (by rw [hc]; simp)
        rw [isAuthorityEnd, Bool.or_assoc] at hend
        exact Bool.eq_false_iff.1 (Bool.or_eq_false_iff.1 hend).1
      rw [Site.text, hc]
      simp [List.dropWhile_cons_of_neg hslash]
    unfold trimRight
    rw [List.reverse_append, List.dropWhile_append]
    split
    · next hrest =>
        rw [hsite, List.reverse_reverse, List.isEmpty_iff.1 hrest, List.reverse_nil, List.append_nil]
    · rw [List.reverse_append, List.reverse_reverse]
  unfold joinChars joined
  split
  · rfl
  · rw [hne, if_neg (by simp), htrim, List.append_assoc]

theorem behind_joined {rest : List Char} (h : Behind rest) (path : List Char) : Behind (joined rest path) := by
  unfold joined
  split
  · exact h
  · intro c hc
    have hprefix : trimRight isSlash rest <+: rest := List.rdropWhile_prefix isSlash rest
    cases htrim : trimRight isSlash rest with
    | nil =>
        rw [htrim] at hc
        cases hc
        decide
    | cons d t =>
        rw [htrim] at hc hprefix
        cases hc
        obtain ⟨suffix, hsuffix⟩ := hprefix
        exact h _ (by rw [← hsuffix]; rfl)

theorem takeWhile_dropWhile_slash (path : List Char) :
    (path.dropWhile isSlash).takeWhile inPath = (path.takeWhile inPath).dropWhile isSlash := by
  induction path with
  | nil => rfl
  | cons c rest ih =>
      by_cases hc : c = '/'
      · subst hc
        rw [List.dropWhile_cons_of_pos rfl, List.takeWhile_cons_of_pos rfl, List.dropWhile_cons_of_pos rfl, ih]
      · have hslash : ¬ isSlash c = true := by simpa [isSlash] using hc
        rw [List.dropWhile_cons_of_neg hslash]
        cases hp : inPath c with
        | true => rw [List.takeWhile_cons_of_pos hp, List.dropWhile_cons_of_neg hslash]
        | false => simp [hp]

/-- A joined path stands behind the base without the slashes at its end, and loses those at its own front. -/
theorem takeWhile_inPath_joined {rest path : List Char} (hrest : ∀ c ∈ rest, inPath c = true) (hpath : path ≠ []) :
    (joined rest path).takeWhile inPath =
      trimRight isSlash rest ++ '/' :: (path.takeWhile inPath).dropWhile isSlash := by
  have htrim : ∀ c ∈ trimRight isSlash rest, inPath c = true := fun c hc =>
    hrest c ((List.rdropWhile_prefix isSlash rest).mem hc)
  rw [joined, if_neg (by simpa using hpath), List.takeWhile_append_of_pos htrim, List.takeWhile_cons_of_pos rfl,
    takeWhile_dropWhile_slash]

theorem takeWhile_append_of_head? {p : Char → Bool} {s : List Char} (h : ∀ c ∈ s.head?, p c = false) (l : List Char) :
    (l ++ s).takeWhile p = l.takeWhile p := by
  induction l with
  | nil =>
      cases s with
      | nil => rfl
      | cons c t => simp [h c rfl]
  | cons c rest ih => simp [List.takeWhile_cons, ih]

end Url

/-- The query stands behind the URL of a request with a question mark in front of it. -/
theorem toList_fullUrl (r : Request) :
    ∃ query, r.fullUrl.toList = r.url.toList ++ query ∧ ∀ c ∈ query.head?, c = '?' := by
  unfold Request.fullUrl
  split
  · exact ⟨[], (List.append_nil _).symm, nofun⟩
  · exact ⟨'?' :: r.query.toList, by simp, fun c hc => (Option.some.inj hc).symm⟩

/-- The URL that a path is joined to under a root. -/
def Document.pathBase (d : Document) (root path : String) : String :=
  if path.startsWith "/" then root else joinUrl root (d.servicePath.getD "")

theorem requestUrl_eq {d : Document} {given : Option String} {root : String}
    (h : (present given).or (present d.rootUrl) = some root) (path : String) :
    requestUrl d path given = joinUrl (d.pathBase root path) path := by
  rw [requestUrl, h, Document.pathBase]
  dsimp only
  split <;> rfl

/-- A base has the site of its root. -/
theorem toList_pathBase {site : Url.Site} {rest : List Char} {root : String}
    (hroot : root.toList = site.text ++ rest) (hrest : Url.Behind rest) (d : Document) (path : String) :
    ∃ rest', (d.pathBase root path).toList = site.text ++ rest' ∧ Url.Behind rest' := by
  unfold Document.pathBase
  split
  · exact ⟨rest, hroot, hrest⟩
  · refine ⟨_, ?_, Url.behind_joined hrest (d.servicePath.getD "").toList⟩
    rw [joinUrl, String.toList_ofList, hroot, Url.joinChars_text]

end ApiDiscovery
