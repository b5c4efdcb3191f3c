import Honeynet.Common.Value
import Honeynet.Lib.Effect
import Honeynet.Lib.Insertion
import Honeynet.Lib.PosixPath
import Mathlib.Data.Char
import Mathlib.Data.List.Lex
import Mathlib.Data.List.Sort

/-!
# The files of a configuration

A configuration that is revealed on an asset leaves files in the copied site of the asset: the
files and the links it declares, a document about the reveal, and the index of these documents.

* `Tree`: the files, each with its path.
* `safeRelativeArtifactPath`, `safeArtifactName`: paths and names that files may have.
* `materializeConfigurationArtifacts`: the declared files and links.
* `writeConfigurationArtifact`: all that is written for one configuration.
* `materialize_contained`: what is declared is written strictly inside the site, and a plain path
  is kept.
-/

namespace Honeynet.Orchestrator

open Collections Text

/-! ### Files -/

/-- What a file holds: a text, or the text of a JSON document. -/
inductive Content
  | text (t : List Char)
  | json (document : Settings)

abbrev Tree := Dict PosixPath Content

/-- What the runtime asks of its machine: which characters beyond ASCII are alphanumeric, the text
of a value that is no text, and whether the file system refuses to make a directory or a file. -/
structure ArtifactHost where
  isAlnumBeyond : Char → Bool
  render : Value → String
  refuses : Tree → PosixPath → Bool

/-- The asset that is configured: the site it serves, if it serves one, and where manifests go
otherwise. -/
structure ArtifactTarget where
  assetId : String
  htmlRoot : Option PosixPath
  manifestDir : PosixPath

/-- A computation over the files. -/
abbrev Write (α : Type) : Type := Effect Tree PyError α

section Host

variable (host : ArtifactHost)

/-- `str(value)`. -/
def ArtifactHost.str : Value → List Char
  | .str s => s.toList
  | v => (host.render v).toList

/-- `path.mkdir(parents=True, exist_ok=True)`. -/
def makeDirectory (path : PosixPath) : Write PUnit := do
  if host.refuses (← get) path then throw ⟨.osError, "not a directory"⟩

/-- `path.write_text(...)`. -/
def writeText (path : PosixPath) (content : Content) : Write PUnit := do
  if host.refuses (← get) path then throw ⟨.osError, "not a file"⟩
  else modify fun tree => Dict.set tree path content

/-! ### Names -/

def isAlnum (c : Char) : Bool :=
  if c.toNat < 128 then c.isAlphanum else host.isAlnumBeyond c

/-- `text.strip("-")`. -/
def stripDashes (t : List Char) : List Char :=
  ((t.dropWhile (· == '-')).reverse.dropWhile (· == '-')).reverse

def safeArtifactName (value : List Char) : List Char :=
  let safe := value.map fun c => if isAlnum host c || c == '-' || c == '_' then c else '-'
  if stripDashes safe = [] then "configuration".toList else stripDashes safe

/-- A name as a path. -/
def fileName (name : List Char) : PosixPath := PosixPath.parse name

/-- A path without what could lead out of a directory. -/
def safeRelativeArtifactPath (value : List Char) : PosixPath :=
  let parts := (PosixPath.parse (value.dropWhile (· == '/'))).parts.filter fun part =>
    part ≠ [] ∧ part ≠ ['.'] ∧ part ≠ ['.', '.']
  if parts ≠ [] then PosixPath.ofParts parts else fileName "configuration.txt".toList

/-! ### The landing page -/

def htmlEscapeChar : Char → List Char
  | '&' => "&amp;".toList
  | '<' => "&lt;".toList
  | '>' => "&gt;".toList
  | '"' => "&quot;".toList
  | c => [c]

def htmlEscape (value : List Char) : List Char := value.flatMap htmlEscapeChar

/-- A link in the landing page. -/
structure RevealLink where
  href : List Char
  label : List Char
  description : List Char
  marker : List Char

def revealAttr : List Char := "data-config-reveal=".toList

def RevealLink.markerAttr (link : RevealLink) : List Char :=
  revealAttr ++ '"' :: (link.marker ++ ['"'])

/-- `a href=`, after the angle of a link. -/
def hrefAttr : List Char := "a href=".toList

/-- What a link ends with. -/
def linkEnd : List Char := "</a>".toList

/-- The link itself. -/
def RevealLink.anchor (link : RevealLink) : List Char :=
  '<' :: (hrefAttr ++ '"' :: (htmlEscape link.href ++
    '"' :: '>' :: (htmlEscape link.label ++ linkEnd)))

def classAttr : List Char := "<section class=".toList

def revealClass : List Char := "configuration-reveal".toList

def sectionTitle : List Char := "><h2>Updated maintenance note</h2><p>".toList

def paragraphBreak : List Char := "</p><p>".toList

def sectionEnd : List Char := "</p></section>".toList

def RevealLink.section (link : RevealLink) : List Char :=
  classAttr ++ '"' :: (revealClass ++ '"' :: ' ' :: (link.markerAttr ++ (sectionTitle ++
    (link.anchor ++ (paragraphBreak ++ (htmlEscape link.description ++ sectionEnd))))))

/-- The section on lines of its own. -/
def RevealLink.snippet (link : RevealLink) : List Char := '\n' :: (link.section ++ ['\n'])

def bodyEnd : List Char := "</body>".toList

def indexPage (htmlRoot : PosixPath) : PosixPath := htmlRoot.join (fileName "index.html".toList)

def appendRevealLinkToAssetIndex (htmlRoot : PosixPath) (link : RevealLink) : Write PUnit := do
  match (← get).lookup (indexPage htmlRoot) with
  | some (.text html) =>
    if contains link.markerAttr html then return ⟨⟩
    else writeText host (indexPage htmlRoot) (.text (insertBefore bodyEnd link.snippet html))
  | _ => return ⟨⟩

/-! ### Declared files and links -/

def formatArtifactContent (value : List Char) (htmlRoot : PosixPath) : List Char :=
  replaceAll "\x7basset_root\x7d".toList htmlRoot.asPosix
    (replaceAll "\x7bhost\x7d".toList "127.0.0.1".toList value)

/-- The file written for the path of a spec. -/
def artifactFile (htmlRoot : PosixPath) (pathValue : List Char) : PosixPath :=
  htmlRoot.join (safeRelativeArtifactPath pathValue)

/-- What one spec of a configuration asks for. -/
inductive SpecAction
  | file (pathValue content : List Char)
  | indexLink (link : RevealLink)

/-- One spec, if it asks for a file or a link. -/
def specAction (htmlRoot : PosixPath) (fallbackSafeId : List Char) (spec : Value) :
    Option SpecAction :=
  match spec with
  | .dict spec =>
    let artifactType := strip (host.str (Settings.getD spec "type" (.str "")))
    if artifactType = "file".toList then
      let pathValue := strip (host.str (Settings.getD spec "path" (.str "")))
      if pathValue = [] then none
      else some (.file pathValue (formatArtifactContent
        (host.str (Settings.getD spec "content" (.str ""))) htmlRoot))
    else if artifactType = "index_link".toList then
      let href := strip (host.str (Settings.getD spec "href" (.str "")))
      let label := strip (host.str (Settings.getD spec "label" (.str "")))
      if href = [] ∨ label = [] then none
      else some (.indexLink {
        href
        label
        description := host.str (Settings.getD spec "description" (.str ""))
        marker := fallbackSafeId ++ '-' :: safeArtifactName host label })
    else none
  | _ => none

/-- What is said of a file or link that was written. -/
def SpecAction.entry (htmlRoot : PosixPath) : SpecAction → Settings
  | .file pathValue _ =>
    [("type", .str "file"),
      ("path", .str (String.ofList (artifactFile htmlRoot pathValue).asPosix)),
      ("url_path", .str (String.ofList ('/' :: (safeRelativeArtifactPath pathValue).asPosix)))]
  | .indexLink link =>
    [("type", .str "index_link"), ("href", .str (String.ofList link.href)),
      ("label", .str (String.ofList link.label))]

def performSpec (htmlRoot : PosixPath) : SpecAction → Write PUnit
  | .file pathValue content => writeText host (artifactFile htmlRoot pathValue) (.text content)
  | .indexLink link => appendRevealLinkToAssetIndex host htmlRoot link

def performSpecs (htmlRoot : PosixPath) : List SpecAction → Write PUnit
  | [] => return ⟨⟩
  | action :: actions => do
    performSpec host htmlRoot action
    performSpecs htmlRoot actions

/-- The specs of a configuration. -/
def artifactSpecs (configuration : Settings) : List Value :=
  (configuration.getD "materialized_artifacts" (.list [])).list?.getD []

/-- What the specs of a configuration ask for, in order. -/
def specActions (htmlRoot : PosixPath) (fallbackSafeId : List Char) (configuration : Settings) :
    List SpecAction :=
  (artifactSpecs configuration).filterMap (specAction host htmlRoot fallbackSafeId)

def materializeConfigurationArtifacts (htmlRoot : PosixPath) (configuration : Settings)
    (fallbackSafeId : List Char) : Write (List Settings) := do
  let actions := specActions host htmlRoot fallbackSafeId configuration
  performSpecs host htmlRoot actions
  return actions.map (SpecAction.entry htmlRoot)

/-! ### All that is written for a configuration -/

def configurationRouteNotes (configuration : Settings) : List Value :=
  (artifactSpecs configuration).filterMap fun spec =>
    spec.dict?.bind fun spec =>
      if (Settings.get spec "type").str? = some "route_note" then
        let text := strip (host.str (Settings.getD spec "text" (.str "")))
        if text = [] then none else some (.str (String.ofList text))
      else none

/-- What is said of a configuration in a document about it. -/
def configurationDocument (assetId configurationId : String) (configuration : Settings)
    (materialized : Option (List Settings)) (routeNotes : List Value) (generatedAt : String) :
    Settings :=
  [("asset_id", .str assetId), ("configuration_id", .str configurationId),
    ("kind", configuration.get "kind"), ("reason", configuration.get "reason"),
    ("covered_techniques", configuration.getD "covered_techniques" (.list [])),
    ("reveal_outputs", configuration.getD "reveal_outputs" (.list [])),
    ("target_asset_id", configuration.get "target_asset_id")] ++
  (materialized.map fun entries =>
    ("materialized_artifacts", Value.list (entries.map .dict))).toList ++
  [("route_notes", .list routeNotes), ("generated_at", .str generatedAt)]

/-- The name of a file of a directory, if it is a JSON document. -/
def jsonName (directory p : PosixPath) : Option (List Char) :=
  if p.root = directory.root ∧ p.tail.dropLast = directory.tail then
    p.tail.getLast?.filter fun name => ".json".toList.isSuffixOf name
  else none

/-- `sorted(directory.glob("*.json"))`. -/
def jsonNames (directory : PosixPath) (tree : Tree) : List (List Char) :=
  (tree.filterMap fun e => jsonName directory e.1).insertionSort (· ≤ ·)

/-- `path.stem` of a JSON document. -/
def jsonStem (name : List Char) : List Char :=
  if name = ".json".toList then name else name.take (name.length - 5)

def revealIndex (names : List (List Char)) : List Char :=
  "<!doctype html>\n<html lang=\"en\"><head><meta charset=\"utf-8\">".toList ++
    "<title>Configuration Reveals</title></head><body><h1>Configuration Reveals</h1><ul>".toList ++
    (names.flatMap fun name => "<li><a href=\"".toList ++ name ++ "\">".toList ++ jsonStem name ++
      "</a></li>".toList) ++ "</ul></body></html>\n".toList

def writeRevealIndex (revealDir : PosixPath) : Write PUnit := do
  writeText host (revealDir.join (fileName "index.html".toList))
    (.text (revealIndex (jsonNames revealDir (← get))))

def writeRuntimeConfigurationManifest (target : ArtifactTarget) (configurationId : String)
    (configuration : Settings) (routeNotes : List Value) (generatedAt : String) :
    Write Settings := do
  if routeNotes.isEmpty then return []
  let path := target.manifestDir.join
    (fileName (safeArtifactName host configurationId.toList ++ ".json".toList))
  makeDirectory host target.manifestDir
  writeText host path (.json (configurationDocument target.assetId configurationId configuration
    none routeNotes generatedAt))
  return [("path", .str (String.ofList path.asPosix)), ("route_notes", .list routeNotes)]

def revealsDir (htmlRoot : PosixPath) : PosixPath := htmlRoot.join (fileName "_reveals".toList)

/-- The document about a configuration. -/
def revealPath (htmlRoot : PosixPath) (configurationId : String) : PosixPath :=
  (revealsDir htmlRoot).join
    (fileName (safeArtifactName host configurationId.toList ++ ".json".toList))

/-- The URL of that document. -/
def revealUrl (configurationId : String) : List Char :=
  "/_reveals/".toList ++ (safeArtifactName host configurationId.toList ++ ".json".toList)

/-- The link to the document of a configuration that declares nothing. -/
def fallbackLink (configurationId : String) (configuration : Settings) : RevealLink where
  href := revealUrl host configurationId
  label := configurationId.toList
  description := host.str (configuration.getD "reason" (.str ""))
  marker := safeArtifactName host configurationId.toList

/-- `generatedAt` is what the clock says. -/
def writeConfigurationArtifact (target : ArtifactTarget) (configurationId : String)
    (configuration : Settings) (generatedAt : String) : Write Settings := do
  let routeNotes := configurationRouteNotes host configuration
  match target.htmlRoot with
  | none =>
    writeRuntimeConfigurationManifest host target configurationId configuration routeNotes
      generatedAt
  | some htmlRoot => do
    makeDirectory host (revealsDir htmlRoot)
    let safeId := safeArtifactName host configurationId.toList
    let materialized ← materializeConfigurationArtifacts host htmlRoot configuration safeId
    writeText host (revealPath host htmlRoot configurationId)
      (.json (configurationDocument target.assetId configurationId configuration
        (some materialized) routeNotes generatedAt))
    writeRevealIndex host (revealsDir htmlRoot)
    if materialized.isEmpty then
      appendRevealLinkToAssetIndex host htmlRoot (fallbackLink host configurationId configuration)
    return [("path", .str (String.ofList (revealPath host htmlRoot configurationId).asPosix)),
      ("url_path", .str (String.ofList (revealUrl host configurationId))),
      ("materialized_artifacts", .list (materialized.map .dict)),
      ("route_notes", .list routeNotes)]

end Host

/-! ### Where declared files are written -/

theorem safeRelativeArtifactPath_spec (value : List Char) :
    (safeRelativeArtifactPath value).root = .relative ∧
      (safeRelativeArtifactPath value).tail ≠ [] ∧
      ['.', '.'] ∉ (safeRelativeArtifactPath value).tail := by
  let parts := (PosixPath.parse (value.dropWhile (· == '/'))).parts.filter fun part =>
    part ≠ [] ∧ part ≠ ['.'] ∧ part ≠ ['.', '.']
  have hhead : (value.dropWhile (· == '/')).head? ≠ some '/' := by
    intro h
    have hnot := List.head?_dropWhile_not (· == '/') value
    rw [h] at hnot
    simp at hnot
  have hparts : (PosixPath.parse (value.dropWhile (· == '/'))).parts =
      PosixPath.segments (value.dropWhile (· == '/')) := by
    obtain ⟨hroot, htail⟩ := PosixPath.parse_of_head hhead
    rw [PosixPath.parts, if_pos hroot, htail]
  have hsegments : ∀ s ∈ parts, PosixPath.IsSegment s := by
    intro s hs
    have hmem := List.mem_of_mem_filter hs
    rw [hparts] at hmem
    exact PosixPath.isSegment_of_mem_segments hmem
  have hdots : ['.', '.'] ∉ parts := by
    intro hmem
    have hfilter := (List.mem_filter.mp hmem).2
    simp at hfilter
  by_cases hne : parts ≠ []
  · have hsafe : safeRelativeArtifactPath value = ⟨.relative, parts, hsegments⟩ := by
      rw [← PosixPath.ofParts_segments hsegments]
      exact if_pos hne
    rw [hsafe]
    exact ⟨rfl, hne, hdots⟩
  · have hsafe : safeRelativeArtifactPath value = fileName "configuration.txt".toList :=
      if_neg hne
    rw [hsafe]
    decide

/-- **Every declared file is strictly inside the site.** -/
theorem strictlyInside_artifactFile (htmlRoot : PosixPath) (value : List Char) :
    htmlRoot.StrictlyInside (artifactFile htmlRoot value) := by
  obtain ⟨hroot, hne, hdots⟩ := safeRelativeArtifactPath_spec value
  exact PosixPath.strictlyInside_join hroot hne hdots

/-- **A plain path is kept.** -/
theorem safeRelativeArtifactPath_plain {value : List Char} (h : PosixPath.IsPlain value)
    (hdots : ['.', '.'] ∉ value.splitOn '/') : safeRelativeArtifactPath value =
      PosixPath.parse value := by
  have hdrop : value.dropWhile (· == '/') = value := by
    cases value with
    | nil => rfl
    | cons c value =>
      have hc : c ≠ '/' := by simpa using h.head
      exact List.dropWhile_cons_of_neg (by simpa using hc)
  have hparts : (PosixPath.parse (value.dropWhile (· == '/'))).parts.filter (fun part =>
      part ≠ [] ∧ part ≠ ['.'] ∧ part ≠ ['.', '.']) = value.splitOn '/' := by
    obtain ⟨hroot, htail⟩ := PosixPath.parse_of_head h.head
    rw [hdrop, PosixPath.parts, if_pos hroot, htail, h.segments]
    refine List.filter_eq_self.mpr fun s hs => ?_
    have hsegment := h s hs
    have hne : s ≠ ['.', '.'] := fun heq => hdots (heq ▸ hs)
    simpa using ⟨hsegment.1, hsegment.2.1, hne⟩
  obtain ⟨hroot, htail⟩ := PosixPath.parse_of_head h.head
  rw [h.segments] at htail
  unfold safeRelativeArtifactPath
  rw [hparts, if_pos (List.splitOn_ne_nil '/' value), PosixPath.ofParts_segments h]
  exact PosixPath.ext hroot.symm htail.symm

section Written

variable {host : ArtifactHost} {htmlRoot : PosixPath}

/-- Files that are not strictly inside the site are as they were in `tree`. -/
def OutsideKept (htmlRoot : PosixPath) (tree t : Tree) : Prop :=
  ∀ p, ¬ htmlRoot.StrictlyInside p → t.lookup p = tree.lookup p

theorem writeText_outside {tree : Tree} {path : PosixPath} (h : htmlRoot.StrictlyInside path)
    (content : Content) : Effect.Triple (OutsideKept htmlRoot tree) (writeText host path content)
      (fun _ => OutsideKept htmlRoot tree) (OutsideKept htmlRoot tree) := by
  refine Effect.Triple.get_bind fun t ht => ?_
  refine Effect.Triple.ite (fun _ => ?_) fun _ => ?_
  · refine Effect.Triple.throw ?_
    rintro _ rfl
    exact ht
  · refine Effect.Triple.modify ?_
    rintro _ rfl p hp
    have hne : p ≠ path := fun heq => hp (heq ▸ h)
    rw [lookup_set_ne _ hne]
    exact ht p hp

theorem strictlyInside_indexPage : htmlRoot.StrictlyInside (indexPage htmlRoot) :=
  PosixPath.strictlyInside_join (by decide) (by decide) (by decide)

theorem performSpec_outside {tree : Tree} (action : SpecAction) :
    Effect.Triple (OutsideKept htmlRoot tree) (performSpec host htmlRoot action)
      (fun _ => OutsideKept htmlRoot tree) (OutsideKept htmlRoot tree) := by
  cases action with
  | file pathValue content =>
    exact writeText_outside (strictlyInside_artifactFile htmlRoot pathValue) _
  | indexLink link =>
    refine Effect.Triple.get_bind fun t ht => ?_
    have hstart : ∀ u, u = t → OutsideKept htmlRoot tree u := fun u hu => hu ▸ ht
    cases t.lookup (indexPage htmlRoot) with
    | none => exact Effect.Triple.pure hstart
    | some content =>
      cases content with
      | json document => exact Effect.Triple.pure hstart
      | text html =>
        refine Effect.Triple.ite (fun _ => ?_) fun _ => ?_
        · exact Effect.Triple.pure hstart
        · exact (writeText_outside strictlyInside_indexPage _).pre hstart

theorem performSpecs_outside {tree : Tree} (actions : List SpecAction) :
    Effect.Triple (OutsideKept htmlRoot tree) (performSpecs host htmlRoot actions)
      (fun _ => OutsideKept htmlRoot tree) (OutsideKept htmlRoot tree) := by
  induction actions with
  | nil => exact Effect.Triple.pure fun _ h => h
  | cons action actions ih => exact Effect.Triple.bind (performSpec_outside action) fun _ => ih

/-- A file is asked for under the path of its spec, without the blanks around it. -/
theorem specAction_file {fallbackSafeId : List Char} {spec : Settings}
    {pathValue content : List Char}
    (h : specAction host htmlRoot fallbackSafeId (.dict spec) = some (.file pathValue content)) :
    pathValue = strip (host.str (spec.getD "path" (.str ""))) := by
  simp only [specAction] at h
  split_ifs at h with hfile hpath hlink hblank
  · have haction := Option.some.inj h
    rw [SpecAction.file.injEq] at haction
    exact haction.1.symm
  · exact absurd (Option.some.inj h) (by simp)

theorem writeText_ok {path : PosixPath} {content : Content} {t t' : Tree}
    (h : Effect.exec (writeText host path content) t = (.ok ⟨⟩, t')) :
    t' = Dict.set t path content := by
  rw [writeText, Effect.exec_bind, Effect.exec_get] at h
  by_cases hrefused : host.refuses t path = true
  · simp [hrefused] at h
  · simp only [if_neg hrefused, Effect.exec_modify, Prod.mk.injEq, true_and] at h
    exact h.symm

/-- A file that is written holds what its spec says. -/
theorem performSpec_file {pathValue content : List Char} {t t' : Tree}
    (h : Effect.exec (performSpec host htmlRoot (.file pathValue content)) t = (.ok ⟨⟩, t')) :
    t' = Dict.set t (artifactFile htmlRoot pathValue) (.text content) :=
  writeText_ok h

/-- **Declared artifacts stay inside**: whatever a configuration declares, only files strictly
inside the site are written; the file of a spec is the one its path leads to there, and a relative
path without dots, empty pieces and blanks around it is kept as it is. -/
theorem materialize_contained (host : ArtifactHost) (htmlRoot : PosixPath)
    (configuration : Settings) (fallbackSafeId : List Char) (tree : Tree) :
    (∀ p, ¬ htmlRoot.StrictlyInside p →
      (Effect.exec (materializeConfigurationArtifacts host htmlRoot configuration fallbackSafeId)
        tree).2.lookup p = tree.lookup p) ∧
    ∀ (spec : Settings) (path : String) (pathValue content : List Char),
      spec.getD "path" (.str "") = .str path →
      specAction host htmlRoot fallbackSafeId (.dict spec) = some (.file pathValue content) →
      (∀ t t', Effect.exec (performSpec host htmlRoot (.file pathValue content)) t = (.ok ⟨⟩, t') →
        t' = Dict.set t (artifactFile htmlRoot pathValue) (.text content)) ∧
      htmlRoot.StrictlyInside (artifactFile htmlRoot pathValue) ∧
      (PosixPath.IsPlain path.toList → ['.', '.'] ∉ path.toList.splitOn '/' →
        strip path.toList = path.toList →
        (safeRelativeArtifactPath pathValue).asPosix = path.toList ∧
        (artifactFile htmlRoot pathValue).tail = htmlRoot.tail ++ path.toList.splitOn '/') := by
  refine ⟨?_, fun spec path pathValue content hpath haction => ⟨fun t t' h => performSpec_file h,
    strictlyInside_artifactFile htmlRoot _, fun hplain hdots hstrip => ?_⟩⟩
  · have hrun : Effect.Triple (OutsideKept htmlRoot tree)
        (materializeConfigurationArtifacts host htmlRoot configuration fallbackSafeId)
        (fun _ => OutsideKept htmlRoot tree) (OutsideKept htmlRoot tree) :=
      Effect.Triple.bind (performSpecs_outside _) fun _ => Effect.Triple.pure fun _ h => h
    exact hrun.after fun _ _ => rfl
  · have hvalue : pathValue = path.toList := by
      rw [specAction_file haction, hpath]
      exact hstrip
    have hkept := safeRelativeArtifactPath_plain hplain hdots
    obtain ⟨hroot, htail⟩ := PosixPath.parse_of_head hplain.head
    rw [hvalue, artifactFile, hkept]
    exact ⟨PosixPath.asPosix_parse hplain, by
      rw [(PosixPath.join_relative hroot).2, htail, hplain.segments]⟩

/-- A machine that writes every file. -/
def sampleHost : ArtifactHost where
  isAlnumBeyond _ := false
  render _ := ""
  refuses _ _ := false

def sampleSite : PosixPath := PosixPath.parse "/srv/site".toList

theorem materialize_contained_notes :
    sampleSite.StrictlyInside (artifactFile sampleSite "notes/vault.txt".toList) ∧
      (safeRelativeArtifactPath "notes/vault.txt".toList).asPosix = "notes/vault.txt".toList := by
  have hnotes := (materialize_contained sampleHost sampleSite [] [] []).2
    [("type", .str "file"), ("path", .str "notes/vault.txt"), ("content", .str "")]
    "notes/vault.txt" "notes/vault.txt".toList [] rfl rfl
  exact ⟨hnotes.2.1, (hnotes.2.2 (by decide) (by decide) (by decide)).1⟩

end Written

end Honeynet.Orchestrator
