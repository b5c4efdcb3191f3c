import Honeynet.Orchestrator.Artifacts

/-!
# Reveals side by side

The configurations of one asset leave their files in one site.  File names come from a function
that forgets what the ids are, and a link is left out when its marker is in the landing page.

* `RevealLink.into`: the landing page with a link.
* `markerAttr_of_into`: the markers of a page are those it had and that of the new link.
* `Reveal`, `Applied`: configurations that are applied one after the other.
* `Apart`: reveals that neither share a name nor a marker.
* `Kept`: every reveal has left its document and its links, and applying it again changes nothing.
* `applied_kept`: reveals that are apart keep out of each other's way.
-/

namespace Honeynet.Orchestrator

open Collections Text

variable {host : ArtifactHost}

/-! ### Links in the landing page -/

/-- What names and markers are made of. -/
def SafeText (host : ArtifactHost) (t : List Char) : Prop :=
  ∀ c ∈ t, isAlnum host c = true ∨ c = '-' ∨ c = '_'

theorem SafeText.notMem {t : List Char} (h : SafeText host t) {c : Char} (hascii : c.toNat < 128)
    (hc : c.isAlphanum = false ∧ c ≠ '-' ∧ c ≠ '_') : c ∉ t := by
  intro hmem
  rcases h c hmem with halnum | hdash | hunder
  · rw [isAlnum, if_pos hascii, hc.1] at halnum
    exact absurd halnum (by simp)
  · exact hc.2.1 hdash
  · exact hc.2.2 hunder

theorem safeText_safeArtifactName (value : List Char) :
    SafeText host (safeArtifactName host value) := by
  intro c hc
  simp only [safeArtifactName] at hc
  split_ifs at hc with hempty
  · have hword : ∀ c ∈ "configuration".toList, c.toNat < 128 ∧ c.isAlphanum = true := by decide
    obtain ⟨hascii, halnum⟩ := hword c hc
    exact Or.inl (by rw [isAlnum, if_pos hascii, halnum])
  · have hsafe : c ∈ value.map fun c =>
        if isAlnum host c || c == '-' || c == '_' then c else '-' := by
      have hreverse := List.dropWhile_subset _ (List.mem_reverse.mp hc)
      exact List.dropWhile_subset _ (List.mem_reverse.mp hreverse)
    obtain ⟨d, -, rfl⟩ := List.mem_map.mp hsafe
    split_ifs with hd
    · simpa [or_assoc] using hd
    · exact Or.inr (Or.inl rfl)

theorem safeText_marker {a b : List Char} (ha : SafeText host a) (hb : SafeText host b) :
    SafeText host (a ++ '-' :: b) := by
  intro c hc
  rcases List.mem_append.mp hc with hc | hc
  · exact ha c hc
  · rcases List.mem_cons.mp hc with rfl | hc
    · exact Or.inr (Or.inl rfl)
    · exact hb c hc

theorem notMem_htmlEscape (t : List Char) : '<' ∉ htmlEscape t ∧ '"' ∉ htmlEscape t := by
  have hchar : ∀ c : Char, '<' ∉ htmlEscapeChar c ∧ '"' ∉ htmlEscapeChar c := by
    intro c
    unfold htmlEscapeChar
    split
    · decide
    · decide
    · decide
    · decide
    · next hamp hlt hgt hquot =>
      rw [List.mem_singleton, List.mem_singleton]
      exact ⟨fun h => hlt h.symm, fun h => hquot h.symm⟩
  have hnone : ∀ d, (∀ c, d ∉ htmlEscapeChar c) → d ∉ htmlEscape t := fun d hd hmem => by
    obtain ⟨c, -, hc⟩ := List.mem_flatMap.mp hmem
    exact hd c hc
  exact ⟨hnone '<' fun c => (hchar c).1, hnone '"' fun c => (hchar c).2⟩

theorem bodyEnd_ne_nil : bodyEnd ≠ [] := by decide

/-- A piece without a tag stays whole. -/
theorem unbroken_of_notMem {p : List Char} (h : '<' ∉ p) : Unbroken bodyEnd p := by
  have hend : bodyEnd = '<' :: "/body>".toList := by decide
  intro u v hp _ hv
  have hnot : '<' ∉ v := fun hmem => h (hp ▸ List.mem_append_right u hmem)
  obtain ⟨c, w, rfl⟩ := List.exists_cons_of_ne_nil hv
  refine ⟨fun hpre => ?_, fun hpre => ?_⟩
  · rw [hend, List.cons_prefix_cons] at hpre
    exact hnot (hpre.1 ▸ List.mem_cons_self)
  · rw [hend, List.cons_prefix_cons] at hpre
    exact hnot (hpre.1 ▸ List.mem_cons_self)

/-- A link stays whole. -/
theorem unbroken_anchor (link : RevealLink) : Unbroken bodyEnd link.anchor := by
  have hend : bodyEnd = '<' :: "/body>".toList := by decide
  have hattr : '<' ∉ hrefAttr := by decide
  obtain ⟨w, hw, hanchor⟩ : ∃ w, '<' ∉ w ∧ link.anchor = '<' :: (w ++ linkEnd) := by
    refine ⟨hrefAttr ++ '"' :: (htmlEscape link.href ++ '"' :: '>' :: htmlEscape link.label),
      ?_, ?_⟩
    · simp [hattr, (notMem_htmlEscape link.href).1, (notMem_htmlEscape link.label).1]
    · rw [RevealLink.anchor]
      simp only [List.cons_append, List.append_assoc]
  rw [hanchor]
  intro u v hp hu hv
  obtain ⟨c, u', rfl⟩ := List.exists_cons_of_ne_nil hu
  have hrest : w ++ linkEnd = u' ++ v := (List.cons.inj hp).2
  -- the end begins inside the text of the link or inside its last tag
  rcases List.append_eq_append_iff.mp hrest with ⟨d, -, hd⟩ | ⟨d, hwd, hvd⟩
  · have hclose : ∀ v ∈ linkEnd.tails, v ≠ [] → ¬ v <+: bodyEnd ∧ ¬ bodyEnd <+: v := by decide
    exact hclose v ((List.mem_tails _ _).mpr ⟨d, hd.symm⟩) hv
  · cases d with
    | nil =>
      rw [List.nil_append] at hvd
      rw [hvd]
      decide
    | cons e d =>
      have he : e ≠ '<' := fun heq => hw (by rw [hwd, heq]; simp)
      rw [hvd, hend]
      refine ⟨fun hpre => ?_, fun hpre => ?_⟩
      · rw [List.cons_append, List.cons_prefix_cons] at hpre
        exact he hpre.1
      · rw [List.cons_append, List.cons_prefix_cons] at hpre
        exact he hpre.1.symm

/-- A link put into the landing page, unless its marker is there. -/
def RevealLink.into (link : RevealLink) (html : List Char) : List Char :=
  if contains link.markerAttr html then html else insertBefore bodyEnd link.snippet html

theorem markerAttr_infix_section (link : RevealLink) : link.markerAttr <:+: link.section :=
  (List.infix_append_of_infix_left List.infix_rfl).trans
    ((List.suffix_cons ' ' _).isInfix.trans ((List.suffix_cons '"' _).isInfix.trans
      (List.infix_append_right.trans ((List.suffix_cons '"' _).isInfix.trans
        List.infix_append_right))))

theorem anchor_infix_section (link : RevealLink) : link.anchor <:+: link.section := by
  refine ⟨classAttr ++ '"' :: (revealClass ++ '"' :: ' ' :: (link.markerAttr ++ sectionTitle)),
    paragraphBreak ++ (htmlEscape link.description ++ sectionEnd), ?_⟩
  rw [RevealLink.section]
  simp only [List.append_assoc, List.cons_append]

theorem section_infix_snippet (link : RevealLink) : link.section <:+: link.snippet :=
  (List.infix_append_of_infix_left List.infix_rfl).trans (List.suffix_cons '\n' _).isInfix

theorem markerAttr_notMem {link : RevealLink} (h : SafeText host link.marker) {c : Char}
    (hascii : c.toNat < 128) (hc : c.isAlphanum = false ∧ c ≠ '-' ∧ c ≠ '_') (hq : c ≠ '"')
    (hattr : c ∉ revealAttr) : c ∉ link.markerAttr := by
  rw [RevealLink.markerAttr]
  simp [hattr, hq, h.notMem hascii hc]

/-- **The marker of a section is its own**: no other is found in its text. -/
theorem marker_of_section {l k : RevealLink} (hl : SafeText host l.marker)
    (hk : SafeText host k.marker) (h : l.markerAttr <:+: k.section) : l.marker = k.marker := by
  have hquote : ∀ {t : List Char}, SafeText host t → '"' ∉ t := fun ht =>
    ht.notMem (by decide) (by decide)
  have hattr : '"' ∉ revealAttr := by decide
  -- what stands after the last quote of the section
  let rest : List Char := '>' :: (htmlEscape k.label ++ (linkEnd ++ (paragraphBreak ++
    (htmlEscape k.description ++ sectionEnd))))
  have hrest : '"' ∉ rest := by
    have hend : '"' ∉ linkEnd ∧ '"' ∉ paragraphBreak ∧ '"' ∉ sectionEnd := by decide
    simp [rest, (notMem_htmlEscape k.label).2, (notMem_htmlEscape k.description).2, hend.1,
      hend.2.1, hend.2.2]
  have hsection : k.section = classAttr ++ '"' :: (revealClass ++ '"' :: ((' ' :: revealAttr) ++
      '"' :: (k.marker ++ '"' :: ((sectionTitle ++ '<' :: hrefAttr) ++ '"' ::
        (htmlEscape k.href ++ '"' :: rest))))) := by
    rw [RevealLink.section, RevealLink.markerAttr, RevealLink.anchor]
    simp only [rest, List.append_assoc, List.cons_append, List.nil_append]
  rw [hsection, RevealLink.markerAttr] at h
  have hclass : ¬ revealAttr <:+ classAttr ∧ ¬ revealAttr <:+ revealClass ∧
      ¬ revealAttr <:+ sectionTitle ++ '<' :: hrefAttr := by decide
  -- the quotes of the section one after the other
  rcases quoted_infix hattr (by decide) h with ⟨hbad, -⟩ | h
  · exact absurd hbad hclass.1
  rcases quoted_infix hattr (by decide) h with ⟨hbad, -⟩ | h
  · exact absurd hbad hclass.2.1
  rcases quoted_infix hattr (by decide) h with ⟨-, hpre⟩ | h
  · obtain ⟨z, hz⟩ := hpre
    rw [List.append_assoc, List.singleton_append] at hz
    exact (eq_of_append_cons (hquote hl) (hquote hk) hz).1
  rcases quoted_infix hattr (hquote hk) h with ⟨hbad, -⟩ | h
  · have heq : '=' ∉ k.marker := hk.notMem (by decide) (by decide)
    exact absurd (hbad.subset (by decide)) heq
  rcases quoted_infix hattr (by decide) h with ⟨hbad, -⟩ | h
  · exact absurd hbad hclass.2.2
  rcases quoted_infix hattr (notMem_htmlEscape k.href).2 h with ⟨-, hpre⟩ | h
  · exact absurd (hpre.subset (by simp)) hrest
  · exact absurd (h.subset (by simp)) hrest

/-- **The markers of a page** are those it had and that of the new link. -/
theorem markerAttr_of_into {l k : RevealLink} (hl : SafeText host l.marker)
    (hk : SafeText host k.marker) {html : List Char} (h : l.markerAttr <:+: k.into html) :
    l.markerAttr <:+: html ∨ l.marker = k.marker := by
  rw [RevealLink.into] at h
  split_ifs at h with hin
  · exact Or.inl h
  · have hbreak : '\n' ∉ l.markerAttr :=
      markerAttr_notMem hl (by decide) (by decide) (by decide) (by decide)
    rcases infix_of_infix_insertBefore bodyEnd_ne_nil hbreak h with hold | hnew
    · exact Or.inl hold
    · exact Or.inr (marker_of_section hl hk hnew)

/-- What is in a page stays. -/
theorem infix_into {p : List Char} (hp : Unbroken bodyEnd p) (k : RevealLink) {html : List Char}
    (h : p <:+: html) : p <:+: k.into html := by
  rw [RevealLink.into]
  split_ifs with hin
  · exact h
  · exact infix_insertBefore bodyEnd_ne_nil hp _ h

/-- The marker of a link is in the page with it. -/
theorem markerAttr_into (k : RevealLink) (html : List Char) : k.markerAttr <:+: k.into html := by
  rw [RevealLink.into]
  split_ifs with hin
  · exact contains_iff.mp hin
  · exact (markerAttr_infix_section k).trans ((section_infix_snippet k).trans
      (infix_insertBefore_self bodyEnd_ne_nil _ _))

/-! ### The links of a page -/

/-- The page with links put into it one after the other. -/
def pageWith (links : List RevealLink) (html : List Char) : List Char :=
  links.foldl (fun html link => link.into html) html

/-- A page that has a link wherever it has the marker of the link. -/
def Honest (links : List RevealLink) (html : List Char) : Prop :=
  ∀ l ∈ links, l.markerAttr <:+: html → l.anchor <:+: html

/-- Links with one marker are one link. -/
def MarkersApart (links : List RevealLink) : Prop :=
  ∀ l ∈ links, ∀ k ∈ links, l.marker = k.marker → l.anchor = k.anchor

theorem infix_pageWith {p : List Char} (hp : Unbroken bodyEnd p) (links : List RevealLink)
    {html : List Char} (h : p <:+: html) : p <:+: pageWith links html := by
  induction links generalizing html with
  | nil => exact h
  | cons link links ih => exact ih (infix_into hp link h)

theorem unbroken_markerAttr {link : RevealLink} (h : SafeText host link.marker) :
    Unbroken bodyEnd link.markerAttr :=
  unbroken_of_notMem (markerAttr_notMem h (by decide) (by decide) (by decide) (by decide))

theorem markerAttr_pageWith {links : List RevealLink} (hsafe : ∀ l ∈ links, SafeText host l.marker)
    (html : List Char) : ∀ l ∈ links, l.markerAttr <:+: pageWith links html := by
  induction links generalizing html with
  | nil => exact fun l hl => absurd hl List.not_mem_nil
  | cons link links ih =>
    intro l hl
    rw [List.forall_mem_cons] at hsafe
    rcases List.mem_cons.mp hl with rfl | hl
    · exact infix_pageWith (unbroken_markerAttr hsafe.1) links (markerAttr_into l html)
    · exact ih hsafe.2 (link.into html) l hl

theorem Honest.into {links : List RevealLink} {html : List Char} (h : Honest links html)
    (hsafe : ∀ l ∈ links, SafeText host l.marker) (hapart : MarkersApart links)
    {k : RevealLink} (hk : k ∈ links) : Honest links (k.into html) := by
  intro l hl hmarker
  rcases markerAttr_of_into (hsafe l hl) (hsafe k hk) hmarker with hold | hsame
  · exact infix_into (unbroken_anchor l) k (h l hl hold)
  · have hanchor : l.anchor = k.anchor := hapart l hl k hk hsame
    rw [RevealLink.into]
    split_ifs with hin
    · have hattr : l.markerAttr = k.markerAttr := by
        rw [RevealLink.markerAttr, RevealLink.markerAttr, hsame]
      exact h l hl (hattr ▸ contains_iff.mp hin)
    · rw [hanchor]
      exact (anchor_infix_section k).trans ((section_infix_snippet k).trans
        (infix_insertBefore_self bodyEnd_ne_nil _ _))

theorem Honest.pageWith {all links : List RevealLink} {html : List Char} (h : Honest all html)
    (hsafe : ∀ l ∈ all, SafeText host l.marker) (hapart : MarkersApart all)
    (hsub : ∀ l ∈ links, l ∈ all) : Honest all (pageWith links html) := by
  induction links generalizing html with
  | nil => exact h
  | cons link links ih =>
    rw [List.forall_mem_cons] at hsub
    exact ih (h.into hsafe hapart hsub.1) hsub.2

/-! ### The documents about configurations -/

/-- A site that reveals are left in. -/
structure RevealSite where
  assetId : String
  htmlRoot : PosixPath
  manifestDir : PosixPath

def RevealSite.target (site : RevealSite) : ArtifactTarget where
  assetId := site.assetId
  htmlRoot := some site.htmlRoot
  manifestDir := site.manifestDir

/-- The index of the documents. -/
def revealsIndex (htmlRoot : PosixPath) : PosixPath :=
  (revealsDir htmlRoot).join (fileName "index.html".toList)

def jsonSuffix : List Char := ".json".toList

theorem isSegment_jsonFile (host : ArtifactHost) (configurationId : String) :
    PosixPath.IsSegment (safeArtifactName host configurationId.toList ++ jsonSuffix) := by
  have hslash : '/' ∉ safeArtifactName host configurationId.toList :=
    (safeText_safeArtifactName configurationId.toList).notMem (by decide) (by decide)
  have hlen : jsonSuffix.length = 5 := by decide
  refine ⟨fun h => ?_, fun h => ?_, fun h => ?_⟩
  · have := congrArg List.length h
    rw [List.length_append, List.length_nil] at this
    omega
  · have := congrArg List.length h
    rw [List.length_append, List.length_singleton] at this
    omega
  · rcases List.mem_append.mp h with h | h
    · exact hslash h
    · exact absurd h (by decide)

theorem tail_indexPage (htmlRoot : PosixPath) :
    (indexPage htmlRoot).tail = htmlRoot.tail ++ ["index.html".toList] :=
  (PosixPath.join_relative rfl).2

theorem tail_revealsDir (htmlRoot : PosixPath) :
    (revealsDir htmlRoot).tail = htmlRoot.tail ++ ["_reveals".toList] :=
  (PosixPath.join_relative rfl).2

theorem tail_revealsIndex (htmlRoot : PosixPath) :
    (revealsIndex htmlRoot).tail = (revealsDir htmlRoot).tail ++ ["index.html".toList] :=
  (PosixPath.join_relative rfl).2

theorem tail_revealPath (host : ArtifactHost) (htmlRoot : PosixPath) (configurationId : String) :
    (revealPath host htmlRoot configurationId).tail = (revealsDir htmlRoot).tail ++
      [safeArtifactName host configurationId.toList ++ jsonSuffix] := by
  obtain ⟨hroot, htail⟩ := PosixPath.parse_segment (isSegment_jsonFile host configurationId)
  rw [revealPath, (PosixPath.join_relative (by exact hroot)).2]
  exact congrArg _ htail

theorem strictlyInside_revealPath (host : ArtifactHost) (htmlRoot : PosixPath)
    (configurationId : String) :
    (revealsDir htmlRoot).StrictlyInside (revealPath host htmlRoot configurationId) := by
  obtain ⟨hroot, htail⟩ := PosixPath.parse_segment (isSegment_jsonFile host configurationId)
  have hlen : jsonSuffix.length = 5 := by decide
  refine PosixPath.strictlyInside_join hroot ?_ ?_
  · exact fun h => absurd (htail.symm.trans h) (by simp)
  · intro h
    have hmem := List.mem_singleton.mp ((congrArg (['.', '.'] ∈ ·) htail).mp h)
    have := congrArg List.length hmem
    rw [List.length_append] at this
    simp at this
    omega

theorem strictlyInside_revealsIndex (htmlRoot : PosixPath) :
    (revealsDir htmlRoot).StrictlyInside (revealsIndex htmlRoot) :=
  PosixPath.strictlyInside_join (by decide) (by decide) (by decide)

/-- **Documents of different names** are different files. -/
theorem revealPath_inj {htmlRoot : PosixPath} {i j : String}
    (h : revealPath host htmlRoot i = revealPath host htmlRoot j) :
    safeArtifactName host i.toList = safeArtifactName host j.toList := by
  have htail := congrArg PosixPath.tail h
  rw [tail_revealPath, tail_revealPath] at htail
  have hlast := List.append_cancel_left htail
  exact List.append_cancel_right (List.cons.inj hlast).1

theorem revealPath_ne_revealsIndex (host : ArtifactHost) (htmlRoot : PosixPath) (i : String) :
    revealPath host htmlRoot i ≠ revealsIndex htmlRoot := by
  intro h
  have htail := congrArg PosixPath.tail h
  rw [tail_revealPath, tail_revealsIndex] at htail
  have hlast := (List.cons.inj (List.append_cancel_left htail)).1
  have hsuffix : jsonSuffix <:+ "index.html".toList := ⟨_, hlast⟩
  exact absurd hsuffix (by decide)

theorem ne_indexPage_of_tail {htmlRoot p : PosixPath} {name : List Char}
    (h : p.tail = (revealsDir htmlRoot).tail ++ [name]) : p ≠ indexPage htmlRoot := by
  rintro rfl
  have hlen := congrArg List.length h
  rw [tail_indexPage, tail_revealsDir] at hlen
  simp at hlen

/-- The names of JSON documents do not depend on what files hold. -/
theorem jsonNames_set {directory p : PosixPath} {t : Tree}
    (h : (t.lookup p).isSome ∨ jsonName directory p = none) (c : Content) :
    jsonNames directory (Dict.set t p c) = jsonNames directory t := by
  have hkeys : ∀ u : Tree, (u.filterMap fun e => jsonName directory e.1) =
      (u.map Prod.fst).filterMap (jsonName directory) := fun u => by
    rw [List.filterMap_map]
    rfl
  unfold jsonNames
  rw [hkeys, hkeys, keys_set, addNew]
  by_cases hmem : p ∈ t.map Prod.fst
  · rw [if_pos hmem]
  · rcases h with hin | hnone
    · exact absurd (lookup_isSome_iff.mp hin) hmem
    · rw [if_neg hmem, List.filterMap_append]
      simp [hnone]

theorem jsonName_revealsIndex (htmlRoot : PosixPath) :
    jsonName (revealsDir htmlRoot) (revealsIndex htmlRoot) = none := by
  have hlast : (revealsIndex htmlRoot).tail.getLast? = some "index.html".toList := by
    rw [tail_revealsIndex]
    exact List.getLast?_concat
  rw [jsonName]
  split_ifs with hin
  · rw [hlast]
    decide
  · rfl

/-! ### What one configuration leaves -/

/-- The file a spec asks for, and what it holds. -/
def SpecAction.file? (htmlRoot : PosixPath) : SpecAction → Option (PosixPath × Content)
  | .file pathValue content => some (artifactFile htmlRoot pathValue, .text content)
  | .indexLink _ => none

/-- The link a spec asks for. -/
def SpecAction.link? : SpecAction → Option RevealLink
  | .file _ _ => none
  | .indexLink link => some link

theorem files_cons_file (htmlRoot : PosixPath) (pathValue content : List Char)
    (actions : List SpecAction) :
    (SpecAction.file pathValue content :: actions).filterMap (SpecAction.file? htmlRoot) =
      (artifactFile htmlRoot pathValue, .text content) ::
        actions.filterMap (SpecAction.file? htmlRoot) := rfl

theorem links_cons_link (link : RevealLink) (actions : List SpecAction) :
    (SpecAction.indexLink link :: actions).filterMap SpecAction.link? =
      link :: actions.filterMap SpecAction.link? := rfl

/-- A configuration that is applied. -/
structure Reveal where
  configurationId : String
  configuration : Settings
  generatedAt : String

namespace Reveal

variable (host : ArtifactHost) (site : RevealSite) (r : Reveal)

/-- What the specs of the configuration ask for. -/
def actions : List SpecAction :=
  specActions host site.htmlRoot (safeArtifactName host r.configurationId.toList) r.configuration

/-- What is said of the configuration, but for the time. -/
def statement : Settings :=
  (configurationDocument site.assetId r.configurationId r.configuration
    (some ((r.actions host site).map (SpecAction.entry site.htmlRoot)))
    (configurationRouteNotes host r.configuration) r.generatedAt).dropLast

/-- The document about the configuration. -/
def document : Settings := r.statement host site ++ [("generated_at", .str r.generatedAt)]

/-- The files the configuration declares. -/
def files : List (PosixPath × Content) :=
  (r.actions host site).filterMap (SpecAction.file? site.htmlRoot)

/-- The links the configuration declares. -/
def declaredLinks : List RevealLink := (r.actions host site).filterMap SpecAction.link?

/-- The links that are put into the landing page: one to the document where nothing is declared. -/
def links : List RevealLink :=
  if r.actions host site = [] then [fallbackLink host r.configurationId r.configuration]
  else r.declaredLinks host site

theorem document_id : (r.document host site)[1]? =
    some ("configuration_id", .str r.configurationId) := rfl

end Reveal

/-- The files with a link in the landing page, if there is a landing page. -/
def linkInto (htmlRoot : PosixPath) (link : RevealLink) (t : Tree) : Tree :=
  match t.lookup (indexPage htmlRoot) with
  | some (.text html) => Dict.set t (indexPage htmlRoot) (.text (link.into html))
  | _ => t

/-- The files with what a spec asks for. -/
def SpecAction.performed (htmlRoot : PosixPath) (t : Tree) : SpecAction → Tree
  | .file pathValue content => Dict.set t (artifactFile htmlRoot pathValue) (.text content)
  | .indexLink link => linkInto htmlRoot link t

/-- The files with the document about a configuration and the index of the documents. -/
def Reveal.documented (host : ArtifactHost) (site : RevealSite) (r : Reveal) (t : Tree) : Tree :=
  let documented := Dict.set t (revealPath host site.htmlRoot r.configurationId)
    (.json (r.document host site))
  Dict.set documented (revealsIndex site.htmlRoot)
    (.text (revealIndex (jsonNames (revealsDir site.htmlRoot) documented)))

/-- The files with all that is left for a configuration. -/
def Reveal.applied (host : ArtifactHost) (site : RevealSite) (r : Reveal) (t : Tree) : Tree :=
  let performed := (r.actions host site).foldl (SpecAction.performed site.htmlRoot) t
  let documented := r.documented host site performed
  if r.actions host site = [] then
    linkInto site.htmlRoot (fallbackLink host r.configurationId r.configuration) documented
  else documented

theorem makeDirectory_ok {path : PosixPath} {t t' : Tree}
    (h : Effect.exec (makeDirectory host path) t = (.ok ⟨⟩, t')) : t' = t := by
  rw [makeDirectory, Effect.exec_bind, Effect.exec_get] at h
  by_cases hrefused : host.refuses t path = true
  · simp [hrefused] at h
  · simp only [hrefused] at h
    exact (congrArg Prod.snd h).symm

theorem appendRevealLink_ok {htmlRoot : PosixPath} {link : RevealLink} {t t' : Tree}
    (h : Effect.exec (appendRevealLinkToAssetIndex host htmlRoot link) t = (.ok ⟨⟩, t')) :
    t' = linkInto htmlRoot link t := by
  rw [appendRevealLinkToAssetIndex, Effect.exec_bind, Effect.exec_get] at h
  unfold linkInto
  cases hpage : t.lookup (indexPage htmlRoot) with
  | none =>
    simp only [hpage, Effect.exec_pure, Prod.mk.injEq, true_and] at h
    exact h.symm
  | some content =>
    cases content with
    | json document =>
      simp only [hpage, Effect.exec_pure, Prod.mk.injEq, true_and] at h
      exact h.symm
    | text html =>
      simp only [hpage] at h
      by_cases hin : contains link.markerAttr html = true
      · rw [if_pos hin, Effect.exec_pure, Prod.mk.injEq] at h
        show t' = Dict.set t (indexPage htmlRoot) (.text (link.into html))
        rw [RevealLink.into, if_pos hin, set_of_lookup hpage]
        exact h.2.symm
      · rw [if_neg hin] at h
        show t' = Dict.set t (indexPage htmlRoot) (.text (link.into html))
        rw [RevealLink.into, if_neg hin]
        exact writeText_ok h

theorem performSpecs_ok {htmlRoot : PosixPath} {actions : List SpecAction} {t t' : Tree}
    (h : Effect.exec (performSpecs host htmlRoot actions) t = (.ok ⟨⟩, t')) :
    t' = actions.foldl (SpecAction.performed htmlRoot) t := by
  induction actions generalizing t with
  | nil => exact (congrArg Prod.snd h).symm
  | cons action actions ih =>
    obtain ⟨⟨⟩, u, hfirst, hrest⟩ := Effect.exec_bind_ok h
    have hu : u = action.performed htmlRoot t := by
      cases action with
      | file pathValue content => exact performSpec_file hfirst
      | indexLink link => exact appendRevealLink_ok hfirst
    rw [List.foldl_cons, ← hu]
    exact ih hrest

/-- **A call that returns** leaves what it should leave. -/
theorem writeConfigurationArtifact_ok {site : RevealSite} {r : Reveal} {t t' : Tree}
    {result : Settings}
    (h : Effect.exec (writeConfigurationArtifact host site.target r.configurationId
      r.configuration r.generatedAt) t = (.ok result, t')) : t' = r.applied host site t := by
  unfold writeConfigurationArtifact at h
  simp only [RevealSite.target] at h
  obtain ⟨⟨⟩, t₁, hdir, h⟩ := Effect.exec_bind_ok h
  obtain ⟨materialized, t₂, hmaterialize, h⟩ := Effect.exec_bind_ok h
  obtain ⟨⟨⟩, t₃, hdocument, h⟩ := Effect.exec_bind_ok h
  obtain ⟨⟨⟩, t₄, hindex, h⟩ := Effect.exec_bind_ok h
  obtain ⟨⟨⟩, u, hperform, hentries⟩ := Effect.exec_bind_ok hmaterialize
  rw [Effect.exec_pure, Prod.mk.injEq] at hentries
  have hmaterialized := Except.ok.inj hentries.1
  have hactions : t₂ = (r.actions host site).foldl (SpecAction.performed site.htmlRoot) t := by
    rw [← hentries.2, performSpecs_ok hperform, makeDirectory_ok hdir]
    rfl
  have hdoc := writeText_ok hdocument
  rw [← hmaterialized] at hdoc
  have hdocumented : t₄ = r.documented host site
      ((r.actions host site).foldl (SpecAction.performed site.htmlRoot) t) := by
    have hfour := writeText_ok hindex
    rw [hfour, hdoc, hactions]
    rfl
  have hempty : materialized.isEmpty = true ↔ r.actions host site = [] := by
    rw [← hmaterialized, List.isEmpty_iff, List.map_eq_nil_iff]
    rfl
  unfold Reveal.applied
  by_cases hnone : materialized.isEmpty = true
  · rw [if_pos hnone] at h
    obtain ⟨⟨⟩, t₅, hlink, hreturn⟩ := Effect.exec_bind_ok h
    have hlast : t' = t₅ := (congrArg Prod.snd hreturn).symm
    simp only [if_pos (hempty.mp hnone)]
    rw [hlast, appendRevealLink_ok hlink, hdocumented]
  · rw [if_neg hnone] at h
    simp only [if_neg (mt hempty.mpr hnone)]
    rw [← hdocumented]
    exact (congrArg Prod.snd h).symm

/-! ### What is where afterwards -/

theorem linkInto_of_page {htmlRoot : PosixPath} {t : Tree} {html : List Char}
    (h : t.lookup (indexPage htmlRoot) = some (.text html)) (link : RevealLink) :
    linkInto htmlRoot link t = Dict.set t (indexPage htmlRoot) (.text (link.into html)) := by
  rw [linkInto, h]

theorem linkInto_cases (htmlRoot : PosixPath) (link : RevealLink) (t : Tree) :
    linkInto htmlRoot link t = t ∨ (t.lookup (indexPage htmlRoot)).isSome ∧
      ∃ c, linkInto htmlRoot link t = Dict.set t (indexPage htmlRoot) c := by
  unfold linkInto
  split
  · next html h => exact Or.inr ⟨by rw [h]; rfl, _, rfl⟩
  · exact Or.inl rfl

theorem linkInto_lookup_ne {htmlRoot p : PosixPath} (h : p ≠ indexPage htmlRoot)
    (link : RevealLink) (t : Tree) : (linkInto htmlRoot link t).lookup p = t.lookup p := by
  rcases linkInto_cases htmlRoot link t with hsame | ⟨-, c, hset⟩
  · rw [hsame]
  · rw [hset, lookup_set_ne t h]

theorem jsonNames_linkInto (directory htmlRoot : PosixPath) (link : RevealLink) (t : Tree) :
    jsonNames directory (linkInto htmlRoot link t) = jsonNames directory t := by
  rcases linkInto_cases htmlRoot link t with hsame | ⟨hin, c, hset⟩
  · rw [hsame]
  · rw [hset, jsonNames_set (Or.inl hin)]

section Performed

variable {htmlRoot : PosixPath}

/-- The landing page after the specs: the one before with their links. -/
theorem performed_page {actions : List SpecAction} {t : Tree} {html : List Char}
    (hpage : t.lookup (indexPage htmlRoot) = some (.text html))
    (havoid : ∀ f ∈ actions.filterMap (SpecAction.file? htmlRoot), f.1 ≠ indexPage htmlRoot) :
    (actions.foldl (SpecAction.performed htmlRoot) t).lookup (indexPage htmlRoot) =
      some (.text (pageWith (actions.filterMap SpecAction.link?) html)) := by
  induction actions generalizing t html with
  | nil => exact hpage
  | cons action actions ih =>
    cases action with
    | file pathValue content =>
      rw [files_cons_file, List.forall_mem_cons] at havoid
      refine ih ?_ havoid.2
      exact (lookup_set_ne t (Ne.symm havoid.1) _).trans hpage
    | indexLink link =>
      refine ih ?_ havoid
      rw [SpecAction.performed, linkInto_of_page hpage, lookup_set_self]

/-- What the specs do not ask for stays. -/
theorem performed_lookup_ne {actions : List SpecAction} {p : PosixPath}
    (hp : p ≠ indexPage htmlRoot)
    (havoid : p ∉ (actions.filterMap (SpecAction.file? htmlRoot)).map Prod.fst) (t : Tree) :
    (actions.foldl (SpecAction.performed htmlRoot) t).lookup p = t.lookup p := by
  induction actions generalizing t with
  | nil => rfl
  | cons action actions ih =>
    cases action with
    | file pathValue content =>
      rw [files_cons_file, List.map_cons, List.mem_cons, not_or] at havoid
      exact (ih havoid.2 _).trans (lookup_set_ne t havoid.1 _)
    | indexLink link =>
      exact (ih havoid _).trans (linkInto_lookup_ne hp link t)

/-- Every file the specs ask for is there. -/
theorem performed_files {actions : List SpecAction}
    (hnodup : ((actions.filterMap (SpecAction.file? htmlRoot)).map Prod.fst).Nodup)
    (havoid : ∀ f ∈ actions.filterMap (SpecAction.file? htmlRoot), f.1 ≠ indexPage htmlRoot)
    (t : Tree) : ∀ f ∈ actions.filterMap (SpecAction.file? htmlRoot),
      (actions.foldl (SpecAction.performed htmlRoot) t).lookup f.1 = some f.2 := by
  induction actions generalizing t with
  | nil => exact fun f hf => absurd hf List.not_mem_nil
  | cons action actions ih =>
    intro f hf
    cases action with
    | file pathValue content =>
      rw [files_cons_file] at hf hnodup havoid
      rw [List.forall_mem_cons] at havoid
      rw [List.map_cons, List.nodup_cons] at hnodup
      rcases List.mem_cons.mp hf with rfl | hf
      · exact (performed_lookup_ne havoid.1 hnodup.1 _).trans (lookup_set_self t _ _)
      · exact ih hnodup.2 havoid.2 _ f hf
    | indexLink link =>
      exact ih hnodup havoid _ f hf

/-- Asking for what is there changes nothing. -/
theorem performed_self {actions : List SpecAction} {t : Tree} {html : List Char}
    (hpage : t.lookup (indexPage htmlRoot) = some (.text html))
    (hfiles : ∀ f ∈ actions.filterMap (SpecAction.file? htmlRoot), t.lookup f.1 = some f.2)
    (hlinks : ∀ l ∈ actions.filterMap SpecAction.link?, l.markerAttr <:+: html) :
    actions.foldl (SpecAction.performed htmlRoot) t = t := by
  induction actions with
  | nil => rfl
  | cons action actions ih =>
    cases action with
    | file pathValue content =>
      rw [files_cons_file, List.forall_mem_cons] at hfiles
      have hsame : Dict.set t (artifactFile htmlRoot pathValue) (.text content) = t :=
        set_of_lookup hfiles.1
      rw [List.foldl_cons, SpecAction.performed, hsame]
      exact ih hfiles.2 hlinks
    | indexLink link =>
      rw [links_cons_link, List.forall_mem_cons] at hlinks
      have hinto : link.into html = html := if_pos (contains_iff.mpr hlinks.1)
      rw [List.foldl_cons, SpecAction.performed, linkInto_of_page hpage, hinto,
        set_of_lookup hpage]
      exact ih hfiles hlinks.2

end Performed

section AppliedOnce

variable {site : RevealSite} {r : Reveal} {t : Tree} {html : List Char}

theorem revealPath_ne_indexPage (host : ArtifactHost) (htmlRoot : PosixPath) (i : String) :
    revealPath host htmlRoot i ≠ indexPage htmlRoot :=
  ne_indexPage_of_tail (tail_revealPath host htmlRoot i)

theorem revealsIndex_ne_indexPage (htmlRoot : PosixPath) :
    revealsIndex htmlRoot ≠ indexPage htmlRoot :=
  ne_indexPage_of_tail (tail_revealsIndex htmlRoot)

theorem applied_lookup_ne_indexPage {p : PosixPath} (hp : p ≠ indexPage site.htmlRoot) :
    (r.applied host site t).lookup p = (r.documented host site
      ((r.actions host site).foldl (SpecAction.performed site.htmlRoot) t)).lookup p := by
  unfold Reveal.applied
  by_cases hnone : r.actions host site = []
  · simp only [if_pos hnone]
    exact linkInto_lookup_ne hp _ _
  · simp only [if_neg hnone]

theorem applied_document : (r.applied host site t).lookup
    (revealPath host site.htmlRoot r.configurationId) = some (.json (r.document host site)) := by
  rw [applied_lookup_ne_indexPage (revealPath_ne_indexPage host _ _), Reveal.documented,
    lookup_set_ne _ (revealPath_ne_revealsIndex host _ _), lookup_set_self]

theorem applied_index : (r.applied host site t).lookup (revealsIndex site.htmlRoot) =
    some (.text (revealIndex (jsonNames (revealsDir site.htmlRoot) (r.applied host site t)))) := by
  have hnames : jsonNames (revealsDir site.htmlRoot) (r.applied host site t) =
      jsonNames (revealsDir site.htmlRoot) (r.documented host site
        ((r.actions host site).foldl (SpecAction.performed site.htmlRoot) t)) := by
    unfold Reveal.applied
    by_cases hnone : r.actions host site = []
    · simp only [if_pos hnone]
      exact jsonNames_linkInto _ _ _ _
    · simp only [if_neg hnone]
  rw [applied_lookup_ne_indexPage (revealsIndex_ne_indexPage _), hnames, Reveal.documented,
    lookup_set_self, jsonNames_set (Or.inr (jsonName_revealsIndex _))]

theorem applied_lookup_ne {p : PosixPath} (hindex : p ≠ indexPage site.htmlRoot)
    (hpath : p ≠ revealPath host site.htmlRoot r.configurationId)
    (hreveals : p ≠ revealsIndex site.htmlRoot)
    (hfiles : p ∉ (r.files host site).map Prod.fst) :
    (r.applied host site t).lookup p = t.lookup p := by
  rw [applied_lookup_ne_indexPage hindex, Reveal.documented, lookup_set_ne _ hreveals,
    lookup_set_ne _ hpath]
  exact performed_lookup_ne hindex hfiles t

theorem applied_page (hpage : t.lookup (indexPage site.htmlRoot) = some (.text html))
    (havoid : ∀ f ∈ r.files host site, f.1 ≠ indexPage site.htmlRoot) :
    (r.applied host site t).lookup (indexPage site.htmlRoot) =
      some (.text (pageWith (r.links host site) html)) := by
  have hperformed := performed_page hpage havoid
  have hdocumented : (r.documented host site
      ((r.actions host site).foldl (SpecAction.performed site.htmlRoot) t)).lookup
        (indexPage site.htmlRoot) = some (.text (pageWith (r.declaredLinks host site) html)) := by
    rw [Reveal.documented, lookup_set_ne _ (Ne.symm (revealsIndex_ne_indexPage _)),
      lookup_set_ne _ (Ne.symm (revealPath_ne_indexPage host _ _))]
    exact hperformed
  unfold Reveal.applied Reveal.links
  by_cases hnone : r.actions host site = []
  · simp only [if_pos hnone]
    rw [linkInto_of_page hdocumented, lookup_set_self, Reveal.declaredLinks, hnone]
    rfl
  · simp only [if_neg hnone]
    exact hdocumented

theorem applied_files (hnodup : ((r.files host site).map Prod.fst).Nodup)
    (havoid : ∀ f ∈ r.files host site, f.1 ≠ indexPage site.htmlRoot ∧
      ¬ (revealsDir site.htmlRoot).StrictlyInside f.1) :
    ∀ f ∈ r.files host site, (r.applied host site t).lookup f.1 = some f.2 := by
  intro f hf
  obtain ⟨hindex, hinside⟩ := havoid f hf
  have hpath : f.1 ≠ revealPath host site.htmlRoot r.configurationId := fun h =>
    hinside (h ▸ strictlyInside_revealPath host _ _)
  have hreveals : f.1 ≠ revealsIndex site.htmlRoot := fun h =>
    hinside (h ▸ strictlyInside_revealsIndex _)
  rw [applied_lookup_ne_indexPage hindex, Reveal.documented, lookup_set_ne _ hreveals,
    lookup_set_ne _ hpath]
  exact performed_files hnodup (fun f hf => (havoid f hf).1) t f hf

/-- **Applied again**, only the document is written anew. -/
theorem applied_self (hpage : t.lookup (indexPage site.htmlRoot) = some (.text html))
    (hfiles : ∀ f ∈ r.files host site, t.lookup f.1 = some f.2)
    (hlinks : ∀ l ∈ r.links host site, l.markerAttr <:+: html)
    (hdocument : (t.lookup (revealPath host site.htmlRoot r.configurationId)).isSome)
    (hindex : t.lookup (revealsIndex site.htmlRoot) =
      some (.text (revealIndex (jsonNames (revealsDir site.htmlRoot) t)))) :
    r.applied host site t = Dict.set t (revealPath host site.htmlRoot r.configurationId)
      (.json (r.document host site)) := by
  have hperformed : (r.actions host site).foldl (SpecAction.performed site.htmlRoot) t = t := by
    refine performed_self hpage hfiles fun l hl => hlinks l ?_
    have hsome : r.actions host site ≠ [] := fun hnone => by
      rw [hnone] at hl
      exact absurd hl List.not_mem_nil
    rw [Reveal.links, if_neg hsome]
    exact hl
  have hdocumented : r.documented host site t =
      Dict.set t (revealPath host site.htmlRoot r.configurationId)
        (.json (r.document host site)) := by
    unfold Reveal.documented
    refine set_of_lookup ?_
    rw [lookup_set_ne _ (Ne.symm (revealPath_ne_revealsIndex host _ _)),
      jsonNames_set (Or.inl hdocument)]
    exact hindex
  unfold Reveal.applied
  simp only [hperformed, hdocumented]
  by_cases hnone : r.actions host site = []
  · simp only [if_pos hnone]
    have hmarker := hlinks (fallbackLink host r.configurationId r.configuration) (by
      rw [Reveal.links, if_pos hnone]
      exact List.mem_singleton_self _)
    have hinto : (fallbackLink host r.configurationId r.configuration).into html = html :=
      if_pos (contains_iff.mpr hmarker)
    have hthere : (Dict.set t (revealPath host site.htmlRoot r.configurationId)
        (.json (r.document host site))).lookup (indexPage site.htmlRoot) = some (.text html) :=
      (lookup_set_ne t (Ne.symm (revealPath_ne_indexPage host _ _)) _).trans hpage
    rw [linkInto_of_page hthere, hinto, set_of_lookup hthere]
  · simp only [if_neg hnone]

end AppliedOnce

/-! ### One after the other -/

/-- The call that applies a configuration. -/
def Reveal.call (host : ArtifactHost) (site : RevealSite) (r : Reveal) : Write Settings :=
  writeConfigurationArtifact host site.target r.configurationId r.configuration r.generatedAt

/-- Configurations that were applied one after the other, by calls that returned. -/
inductive Applied (host : ArtifactHost) (site : RevealSite) (start : Tree) :
    List Reveal → Tree → Prop
  | nil : Applied host site start [] start
  | snoc {rs : List Reveal} {r : Reveal} {t t' : Tree} {result : Settings}
      (h : Applied host site start rs t)
      (hcall : Effect.exec (r.call host site) t = (.ok result, t')) :
      Applied host site start (rs ++ [r]) t'

/-- What the configurations are taken to be: no two with one id, on a site with a landing page,
and their files different from each other, from that page and from what is about reveals. -/
structure Setting (host : ArtifactHost) (site : RevealSite) (start : Tree) (rs : List Reveal) :
    Prop where
  ids : (rs.map Reveal.configurationId).Nodup
  page : ∃ html, start.lookup (indexPage site.htmlRoot) = some (.text html)
  files : ((rs.flatMap (Reveal.files host site)).map Prod.fst).Nodup
  avoid : ∀ r ∈ rs, ∀ f ∈ r.files host site, f.1 ≠ indexPage site.htmlRoot ∧
    ¬ (revealsDir site.htmlRoot).StrictlyInside f.1

/-- **Reveals apart**: what is left of their ids and labels still tells them from each other, and
the landing page does not begin with the marker of a link it has not got. -/
structure Apart (host : ArtifactHost) (site : RevealSite) (start : Tree) (rs : List Reveal) :
    Prop where
  names : (rs.map fun r => safeArtifactName host r.configurationId.toList).Nodup
  markers : MarkersApart (rs.flatMap (Reveal.links host site))
  honest : ∀ html, start.lookup (indexPage site.htmlRoot) = some (.text html) →
    Honest (rs.flatMap (Reveal.links host site)) html

/-- **Nothing is clobbered**: every configuration has its own document and its links, and applying
it again writes nothing but the time. -/
structure Kept (host : ArtifactHost) (site : RevealSite) (rs : List Reveal) (t : Tree) : Prop where
  own : (rs.map fun r => revealPath host site.htmlRoot r.configurationId).Nodup
  document : ∀ r ∈ rs, t.lookup (revealPath host site.htmlRoot r.configurationId) =
    some (.json (r.document host site))
  links : ∀ r ∈ rs, ∀ l ∈ r.links host site, ∃ html,
    t.lookup (indexPage site.htmlRoot) = some (.text html) ∧ l.anchor <:+: html
  again : ∀ r ∈ rs, ∀ generatedAt result t',
    Effect.exec (({ r with generatedAt } : Reveal).call host site) t = (.ok result, t') →
    ∃ statement, t.lookup (revealPath host site.htmlRoot r.configurationId) =
        some (.json (statement ++ [("generated_at", .str r.generatedAt)])) ∧
      t' = Dict.set t (revealPath host site.htmlRoot r.configurationId)
        (.json (statement ++ [("generated_at", .str generatedAt)]))

section Run

variable {site : RevealSite} {start : Tree} {rs : List Reveal}

/-- What the calls so far have left, on a site whose landing page was `html`. -/
structure Left (host : ArtifactHost) (site : RevealSite) (html : List Char) (rs : List Reveal)
    (t : Tree) : Prop where
  document : ∀ r ∈ rs, t.lookup (revealPath host site.htmlRoot r.configurationId) =
    some (.json (r.document host site))
  files : ∀ r ∈ rs, ∀ f ∈ r.files host site, t.lookup f.1 = some f.2
  page : t.lookup (indexPage site.htmlRoot) =
    some (.text (pageWith (rs.flatMap (Reveal.links host site)) html))
  index : rs ≠ [] → t.lookup (revealsIndex site.htmlRoot) =
    some (.text (revealIndex (jsonNames (revealsDir site.htmlRoot) t)))

/-- A configuration more. -/
theorem Left.applied {html : List Char} {r : Reveal} {t : Tree} (h : Left host site html rs t)
    (hnames : ((rs ++ [r]).map fun r => safeArtifactName host r.configurationId.toList).Nodup)
    (hfiles : (((rs ++ [r]).flatMap (Reveal.files host site)).map Prod.fst).Nodup)
    (havoid : ∀ q ∈ rs ++ [r], ∀ f ∈ q.files host site, f.1 ≠ indexPage site.htmlRoot ∧
      ¬ (revealsDir site.htmlRoot).StrictlyInside f.1) :
    Left host site html (rs ++ [r]) (r.applied host site t) := by
  have hr : r ∈ rs ++ [r] := List.mem_append_right rs (List.mem_singleton_self r)
  have hindex : ∀ f ∈ r.files host site, f.1 ≠ indexPage site.htmlRoot := fun f hf =>
    (havoid r hr f hf).1
  rw [List.flatMap_append, List.map_append, List.nodup_append, List.flatMap_singleton] at hfiles
  refine ⟨fun q hq => ?_, fun q hq f hf => ?_, ?_, fun _ => applied_index⟩
  · rcases List.mem_append.mp hq with hold | hnew
    · -- an earlier document lies elsewhere than all that is written now
      have hpath : revealPath host site.htmlRoot q.configurationId ≠
          revealPath host site.htmlRoot r.configurationId := by
        intro heq
        rw [List.map_append, List.nodup_append] at hnames
        exact hnames.2.2 _ (List.mem_map_of_mem hold) _
          (List.mem_map_of_mem (List.mem_singleton_self r)) (revealPath_inj heq)
      rw [applied_lookup_ne (revealPath_ne_indexPage host _ _) hpath
        (revealPath_ne_revealsIndex host _ _)]
      · exact h.document q hold
      · intro hmem
        obtain ⟨f, hf, heq⟩ := List.mem_map.mp hmem
        exact (havoid r hr f hf).2 (heq ▸ strictlyInside_revealPath host _ _)
    · rw [List.mem_singleton.mp hnew]
      exact applied_document
  · rcases List.mem_append.mp hq with hold | hnew
    · obtain ⟨hfindex, hinside⟩ := havoid q hq f hf
      rw [applied_lookup_ne hfindex
        (fun heq => hinside (heq ▸ strictlyInside_revealPath host _ _))
        (fun heq => hinside (heq ▸ strictlyInside_revealsIndex _))]
      · exact h.files q hold f hf
      · intro hmem
        exact hfiles.2.2 _ (List.mem_map_of_mem (List.mem_flatMap.mpr ⟨q, hold, hf⟩)) _ hmem rfl
    · rw [List.mem_singleton.mp hnew] at hf
      exact applied_files hfiles.2.1 (havoid r hr) f hf
  · rw [applied_page h.page hindex, List.flatMap_append, List.flatMap_singleton, pageWith,
      pageWith, pageWith, List.foldl_append]

/-- What a run leaves. -/
theorem left_of_applied {html : List Char} {t : Tree} (h : Applied host site start rs t)
    (hpage : start.lookup (indexPage site.htmlRoot) = some (.text html))
    (hnames : (rs.map fun r => safeArtifactName host r.configurationId.toList).Nodup)
    (hfiles : ((rs.flatMap (Reveal.files host site)).map Prod.fst).Nodup)
    (havoid : ∀ r ∈ rs, ∀ f ∈ r.files host site, f.1 ≠ indexPage site.htmlRoot ∧
      ¬ (revealsDir site.htmlRoot).StrictlyInside f.1) : Left host site html rs t := by
  induction h with
  | nil =>
    exact ⟨fun r hr => absurd hr List.not_mem_nil, fun r hr => absurd hr List.not_mem_nil, hpage,
      fun hne => absurd rfl hne⟩
  | @snoc rs r t t' result h hcall ih =>
    rw [writeConfigurationArtifact_ok hcall]
    have hsub : rs.Sublist (rs ++ [r]) := List.sublist_append_left rs [r]
    have hold : ((rs.flatMap (Reveal.files host site)).map Prod.fst).Nodup := by
      rw [List.flatMap_append, List.map_append, List.nodup_append] at hfiles
      exact hfiles.1
    exact (ih (hnames.sublist (hsub.map _)) hold fun q hq =>
      havoid q (hsub.subset hq)).applied hnames hfiles havoid

theorem safeText_links {r : Reveal} : ∀ l ∈ r.links host site, SafeText host l.marker := by
  intro l hl
  rw [Reveal.links] at hl
  split_ifs at hl with hnone
  · rw [List.mem_singleton.mp hl]
    exact safeText_safeArtifactName _
  · obtain ⟨action, haction, hlink⟩ := List.mem_filterMap.mp hl
    cases action with
    | file pathValue content => cases hlink
    | indexLink link =>
      cases hlink
      obtain ⟨spec, -, hspec⟩ := List.mem_filterMap.mp haction
      cases spec with
      | dict spec =>
        simp only [specAction] at hspec
        split_ifs at hspec with hfile hpath hindexLink hblank
        · exact absurd (Option.some.inj hspec) (by simp)
        · have hmade := Option.some.inj hspec
          rw [SpecAction.indexLink.injEq] at hmade
          rw [← hmade]
          exact safeText_marker (safeText_safeArtifactName _) (safeText_safeArtifactName _)
      | _ => cases hspec

/-- A run that has left this has clobbered nothing. -/
theorem Left.kept {html : List Char} {t : Tree} (h : Left host site html rs t)
    (hnames : (rs.map fun r => safeArtifactName host r.configurationId.toList).Nodup)
    (hmarkers : MarkersApart (rs.flatMap (Reveal.links host site)))
    (hhonest : Honest (rs.flatMap (Reveal.links host site)) html) : Kept host site rs t := by
  have hsafe : ∀ l ∈ rs.flatMap (Reveal.links host site), SafeText host l.marker := by
    intro l hl
    obtain ⟨r, -, hlr⟩ := List.mem_flatMap.mp hl
    exact safeText_links l hlr
  have hthere := markerAttr_pageWith hsafe html
  have hafter := hhonest.pageWith hsafe hmarkers fun l hl => hl
  refine ⟨?_, h.document, fun r hr l hl => ?_, fun r hr generatedAt result t' hcall => ?_⟩
  · refine List.Nodup.of_map (fun p : PosixPath => p.tail) ?_
    have hname : ((rs.map fun r => safeArtifactName host r.configurationId.toList).map
        fun name => (revealsDir site.htmlRoot).tail ++ [name ++ jsonSuffix]).Nodup := by
      refine hnames.map fun a b hab => ?_
      have hlast := List.append_cancel_left hab
      exact List.append_cancel_right (List.cons.inj hlast).1
    rw [List.map_map] at hname ⊢
    have hsame : (fun p : PosixPath => p.tail) ∘ (fun r : Reveal =>
        revealPath host site.htmlRoot r.configurationId) =
          (fun name => (revealsDir site.htmlRoot).tail ++ [name ++ jsonSuffix]) ∘
            fun r : Reveal => safeArtifactName host r.configurationId.toList :=
      funext fun r => tail_revealPath host site.htmlRoot r.configurationId
    rw [hsame]
    exact hname
  · have hmem : l ∈ rs.flatMap (Reveal.links host site) := List.mem_flatMap.mpr ⟨r, hr, hl⟩
    exact ⟨_, h.page, hafter l hmem (hthere l hmem)⟩
  · have hlinks : ∀ l ∈ r.links host site,
        l.markerAttr <:+: pageWith (rs.flatMap (Reveal.links host site)) html := fun l hl =>
      hthere l (List.mem_flatMap.mpr ⟨r, hr, hl⟩)
    have hdocument := h.document r hr
    have hagain : ({ r with generatedAt } : Reveal).applied host site t =
        Dict.set t (revealPath host site.htmlRoot r.configurationId)
          (.json (({ r with generatedAt } : Reveal).document host site)) :=
      applied_self h.page (h.files r hr) hlinks (by rw [hdocument]; rfl)
        (h.index (List.ne_nil_of_mem hr))
    refine ⟨r.statement host site, hdocument, ?_⟩
    rw [writeConfigurationArtifact_ok hcall, hagain]
    rfl

/-! ### Where nothing is refused -/

section Returns

variable (hwrites : ∀ t p, host.refuses t p = false)
include hwrites

theorem makeDirectory_returns (path : PosixPath) :
    Effect.Triple (fun _ => True) (makeDirectory host path) (fun _ _ => True) fun _ => False := by
  refine Effect.Triple.get_bind fun t _ => ?_
  simp only [hwrites]
  exact Effect.Triple.pure fun _ _ => trivial

theorem writeText_returns (path : PosixPath) (content : Content) :
    Effect.Triple (fun _ => True) (writeText host path content) (fun _ _ => True)
      fun _ => False := by
  refine Effect.Triple.get_bind fun t _ => ?_
  simp only [hwrites]
  exact Effect.Triple.modify fun _ _ => trivial

theorem appendRevealLinkToAssetIndex_returns (htmlRoot : PosixPath) (link : RevealLink) :
    Effect.Triple (fun _ => True) (appendRevealLinkToAssetIndex host htmlRoot link)
      (fun _ _ => True) fun _ => False := by
  refine Effect.Triple.get_bind fun t _ => ?_
  cases t.lookup (indexPage htmlRoot) with
  | none => exact Effect.Triple.pure fun _ _ => trivial
  | some content =>
    cases content with
    | json document => exact Effect.Triple.pure fun _ _ => trivial
    | text html =>
      refine Effect.Triple.ite (fun _ => ?_) fun _ => ?_
      · exact Effect.Triple.pure fun _ _ => trivial
      · exact (writeText_returns hwrites _ _).pre fun _ _ => trivial

theorem performSpecs_returns (htmlRoot : PosixPath) (actions : List SpecAction) :
    Effect.Triple (fun _ => True) (performSpecs host htmlRoot actions) (fun _ _ => True)
      fun _ => False := by
  induction actions with
  | nil => exact Effect.Triple.pure fun _ _ => trivial
  | cons action actions ih =>
    refine Effect.Triple.bind (R := fun _ _ => True) ?_ fun _ => ih
    cases action with
    | file pathValue content => exact writeText_returns hwrites _ _
    | indexLink link => exact appendRevealLinkToAssetIndex_returns hwrites htmlRoot link

/-- A machine that refuses nothing lets every call return. -/
theorem call_returns (r : Reveal) (t : Tree) :
    ∃ result, Effect.exec (r.call host site) t = (.ok result, r.applied host site t) := by
  have hcall : Effect.Triple (fun _ => True) (r.call host site) (fun _ _ => True)
      fun _ => False := by
    refine Effect.Triple.bind (makeDirectory_returns hwrites _) fun _ => ?_
    refine Effect.Triple.bind (R := fun _ _ => True) ?_ fun materialized => ?_
    · exact Effect.Triple.bind (performSpecs_returns hwrites _ _) fun _ =>
        Effect.Triple.pure fun _ _ => trivial
    refine Effect.Triple.bind (writeText_returns hwrites _ _) fun _ => ?_
    -- the index of configurations is read before it is written
    refine Effect.Triple.bind (R := fun _ _ => True) ?_ fun _ => ?_
    · exact Effect.Triple.get_bind fun _ _ =>
        (writeText_returns hwrites _ _).pre fun _ _ => trivial
    refine Effect.Triple.ite (fun _ => ?_) fun _ => ?_
    · exact Effect.Triple.bind (appendRevealLinkToAssetIndex_returns hwrites _ _) fun _ =>
        Effect.Triple.pure fun _ _ => trivial
    · exact Effect.Triple.pure fun _ _ => trivial
  obtain ⟨result, t', hrun, -⟩ := hcall.returns trivial
  exact ⟨result, by rw [hrun, writeConfigurationArtifact_ok hrun]⟩

end Returns

/-- **Reveals that are apart keep out of each other's way**, whatever else the configurations are
and in whatever order they are applied. -/
theorem applied_kept {t : Tree} (hsetting : Setting host site start rs)
    (hrun : Applied host site start rs t) (hapart : Apart host site start rs) :
    Kept host site rs t := by
  obtain ⟨html, hpage⟩ := hsetting.page
  exact (left_of_applied hrun hpage hapart.names hsetting.files hsetting.avoid).kept hapart.names
    hapart.markers (hapart.honest html hpage)

end Run

def sampleRevealSite : RevealSite where
  assetId := "site"
  htmlRoot := sampleSite
  manifestDir := sampleSite

/-- A site with an empty landing page. -/
def sampleTree : Tree := [(indexPage sampleSite, .text [])]

def plainReveal (configurationId : String) : Reveal := ⟨configurationId, [], "t0"⟩

theorem setting_plainReveals {i j : String} (h : i ≠ j) :
    Setting sampleHost sampleRevealSite sampleTree [plainReveal i, plainReveal j] where
  ids := by simpa [plainReveal] using h
  page := ⟨[], by rw [sampleTree, lookup_cons_eq]; exact if_pos rfl⟩
  files := List.nodup_nil
  avoid := fun r hr f hf => by
    have hnone : f ∈ ([] : List (PosixPath × Content)) := by
      rcases List.mem_cons.mp hr with rfl | hr
      · exact hf
      · rw [List.mem_singleton.mp hr] at hf
        exact hf
    exact absurd hnone List.not_mem_nil

theorem apart_plainReveals {i j : String} (h : safeArtifactName sampleHost i.toList ≠
      safeArtifactName sampleHost j.toList) :
    Apart sampleHost sampleRevealSite sampleTree [plainReveal i, plainReveal j] where
  names := by simpa [plainReveal] using h
  markers := by
    have hlinks : [plainReveal i, plainReveal j].flatMap
        (Reveal.links sampleHost sampleRevealSite) =
          [fallbackLink sampleHost i [], fallbackLink sampleHost j []] := rfl
    rw [hlinks]
    intro l hl k hk hmarker
    simp only [List.mem_cons, List.not_mem_nil, or_false] at hl hk
    rcases hl with rfl | rfl
    · rcases hk with rfl | rfl
      · rfl
      · exact absurd hmarker h
    · rcases hk with rfl | rfl
      · exact absurd hmarker.symm h
      · rfl
  honest := by
    intro html hpage l _ hmarker
    have hempty : sampleTree.lookup (indexPage sampleRevealSite.htmlRoot) = some (.text []) := by
      rw [sampleTree, lookup_cons_eq]
      exact if_pos rfl
    rw [hempty] at hpage
    cases hpage
    have hnil := List.infix_nil.mp hmarker
    rw [RevealLink.markerAttr] at hnil
    exact absurd (List.append_eq_nil_iff.mp hnil).1 (by decide)

theorem applied_kept_plain : ∃ t, Kept sampleHost sampleRevealSite
    [plainReveal "notes", plainReveal "vault"] t := by
  obtain ⟨_, hfirst⟩ := @call_returns sampleHost sampleRevealSite (fun _ _ => rfl)
    (plainReveal "notes") sampleTree
  obtain ⟨_, hsecond⟩ := @call_returns sampleHost sampleRevealSite (fun _ _ => rfl)
    (plainReveal "vault") ((plainReveal "notes").applied sampleHost sampleRevealSite sampleTree)
  exact ⟨_, applied_kept (setting_plainReveals (by decide))
    (Applied.snoc (Applied.snoc Applied.nil hfirst) hsecond) (apart_plainReveals (by decide))⟩

/-- A blank and a dash: the second document takes the place of the first. -/
theorem document_overwritten :
    Setting sampleHost sampleRevealSite sampleTree
        [plainReveal "vault note", plainReveal "vault-note"] ∧
      ∃ t, Applied sampleHost sampleRevealSite sampleTree
          [plainReveal "vault note", plainReveal "vault-note"] t ∧
        ¬ Kept sampleHost sampleRevealSite
          [plainReveal "vault note", plainReveal "vault-note"] t := by
  obtain ⟨_, hfirst⟩ := @call_returns sampleHost sampleRevealSite (fun _ _ => rfl)
    (plainReveal "vault note") sampleTree
  obtain ⟨_, hsecond⟩ := @call_returns sampleHost sampleRevealSite (fun _ _ => rfl)
    (plainReveal "vault-note")
    ((plainReveal "vault note").applied sampleHost sampleRevealSite sampleTree)
  refine ⟨setting_plainReveals (by decide), _,
    Applied.snoc (Applied.snoc Applied.nil hfirst) hsecond, fun hkept => ?_⟩
  have hnames : safeArtifactName sampleHost "vault note".toList =
      safeArtifactName sampleHost "vault-note".toList := by decide
  have hpath : revealPath sampleHost sampleRevealSite.htmlRoot
      (plainReveal "vault note").configurationId =
        revealPath sampleHost sampleRevealSite.htmlRoot
          (plainReveal "vault-note").configurationId :=
    congrArg (fun name => (revealsDir sampleSite).join (fileName (name ++ ".json".toList))) hnames
  have hlost := hkept.document (plainReveal "vault note") List.mem_cons_self
  have hthere := hkept.document (plainReveal "vault-note")
    (List.mem_cons_of_mem _ (List.mem_singleton_self _))
  rw [hpath, hthere, Option.some.injEq, Content.json.injEq] at hlost
  have hid := congrArg (fun d : Settings => d[1]?) hlost
  rw [Reveal.document_id, Reveal.document_id] at hid
  exact absurd (congrArg (Option.map Prod.snd) hid) (by simp [plainReveal])

end Honeynet.Orchestrator
