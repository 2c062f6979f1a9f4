import Workbench.Config.Load
import Workbench.Proofs.Files.Descending
import Workbench.Tool.Plan

/-!
# Paths written with a tilde

A caller and a document may write `~/` for the home directory.  What stands behind it is put behind
the home directory, so such a path lies below that directory, unless two dots lead out of it again.

There is one exception.  If a second slash follows, what stands behind the tilde is an absolute path
by itself, and takes the place of the home directory.

* `Path.components_expandHome_iff` says exactly when the home directory stays in front;
* `WrittenAs` are the paths that the program goes by, with the texts that were written for them;
* `Path.expandsTilde_of_absolute` is the whole statement for an absolute home directory;
* `Path.not_behindHome_secondSlash` is a text with a second slash.
-/

namespace Workbench

/-- The component leads somewhere from where it is reached: neither a root nor a dot does. -/
def Component.leads : Component → Bool
  | .root => false
  | .here => false
  | .up => true
  | .name _ => true

namespace Path

/-! ## 1. Components behind others -/

/-- The components of a text that is read as a relative path: slashes and a dot at its beginning
mean nothing. -/
def relativeComponents (s : String) : List Component :=
  (ofString s).components.filter Component.leads

theorem leads_of_component? {s : String} {c : Component} (h : component? s = some c) :
    c.leads = true := by
  unfold component? at h
  split at h
  · cases h
  · split at h <;> cases h <;> rfl

theorem filter_bodyComponents (ss : List String) :
    (bodyComponents ss).filter Component.leads = bodyComponents ss := by
  refine List.filter_eq_self.mpr fun c hc => ?_
  obtain ⟨s, -, hs⟩ := List.mem_filterMap.mp hc
  exact leads_of_component? hs

theorem exists_ofString (s : String) : ∃ first rest, ofString s = ⟨first :: rest⟩ := by
  obtain ⟨first, rest, hsegments⟩ := List.exists_cons_of_ne_nil (isCut_ofString s).nonempty
  exact ⟨first, rest, congrArg mk hsegments⟩

theorem relativeComponents_eq (s : String) :
    relativeComponents s = bodyComponents (ofString s).segments := by
  obtain ⟨first, rest, hp⟩ := exists_ofString s
  rw [relativeComponents, hp, components_cons]
  split
  · rename_i hroot
    simp only [Bool.and_eq_true, beq_iff_eq] at hroot
    rw [List.filter_cons_of_neg (by decide), filter_bodyComponents, hroot.1]
    rfl
  · split
    · rename_i hhere
      rw [List.filter_cons_of_neg (by decide), filter_bodyComponents, beq_iff_eq.mp hhere]
      rfl
    · exact filter_bodyComponents _

theorem up_notMem_iff {s : String} :
    .up ∉ relativeComponents s ↔ ∀ segment ∈ (ofString s).segments, segment ≠ ".." := by
  rw [relativeComponents_eq]
  constructor
  · rintro h segment hsegment rfl
    exact h (List.mem_filterMap.mpr ⟨"..", hsegment, rfl⟩)
  · intro h hup
    obtain ⟨segment, hsegment, hcomponent⟩ := List.mem_filterMap.mp hup
    unfold component? at hcomponent
    split at hcomponent
    · cases hcomponent
    · split at hcomponent
      · rename_i hdots
        exact h segment hsegment (beq_iff_eq.mp hdots)
      · cases hcomponent

/-- A text is an absolute path exactly if it begins with a slash. -/
theorem isAbsolute_ofString (s : String) :
    (ofString s).isAbsolute = true ↔ s.toList.head? = some '/' := by
  constructor
  · intro habs
    have hslash := head?_text_of_isAbsolute habs
    rwa [text_ofString] at hslash
  · intro hslash
    obtain ⟨r, hr⟩ := List.head?_eq_some_iff.mp hslash
    obtain ⟨first, rest, hsegments⟩ := List.exists_cons_of_ne_nil (splitChars_ne_nil r)
    unfold ofString
    rw [hr, splitChars, if_pos (beq_self_eq_true '/'), hsegments]
    rfl

theorem isRelative_ofString {s : String} (h : s.toList.head? ≠ some '/') :
    (ofString s).isAbsolute = false :=
  Bool.eq_false_iff.mpr fun habs => h ((isAbsolute_ofString s).mp habs)

/-! ## 2. The tilde -/

theorem expandHome_tilde (h r : String) :
    expandHome (some h) ("~/" ++ r) = (ofString h).join (ofString r) := by
  have hchars : ("~/" ++ r).toList = '~' :: '/' :: r.toList := by
    rw [String.toList_append]
    rfl
  unfold expandHome
  simp only [hchars, String.ofList_toList]

/-- A text without the tilde, and every text without a home directory, is its path. -/
theorem expandHome_plain {home : Option String} {s : String}
    (h : home = none ∨ ∀ r, s ≠ "~/" ++ r) : expandHome home s = ofString s := by
  unfold expandHome
  split
  · rename_i rest home hs
    rcases h with hnone | hplain
    · cases hnone
    · refine absurd (String.toList_injective ?_) (hplain (String.ofList rest))
      simp [hs]
  · rfl

/-- What begins with a slash takes the place of the home directory. -/
theorem expandHome_slash {home : Option String} {r : String} (hhome : home.isSome = true)
    (hr : r.toList.head? = some '/') : expandHome home ("~/" ++ r) = ofString r := by
  obtain ⟨h, rfl⟩ := Option.isSome_iff_exists.mp hhome
  rw [expandHome_tilde, join, (isAbsolute_ofString r).mpr hr, Bool.true_or, if_pos rfl]

theorem components_of_isAbsolute {s : String} (h : (ofString s).isAbsolute = true) :
    (ofString s).components = .root :: relativeComponents s := by
  obtain ⟨first, rest, hp⟩ := exists_ofString s
  rw [hp, isAbsolute_cons] at h
  rw [relativeComponents, hp, components_cons, if_pos h, List.filter_cons_of_neg (by decide),
    filter_bodyComponents]

theorem ne_empty_of_isAbsolute {h : String} (habs : (ofString h).isAbsolute = true) : h ≠ "" := by
  rintro rfl
  cases habs

/-- **The home directory stays in front**, with the components of the rest behind it, exactly if the
rest does not begin with a slash; or the home directory is the root. -/
theorem components_expandHome_iff {h : String} (habs : (ofString h).isAbsolute = true)
    (r : String) :
    (expandHome (some h) ("~/" ++ r)).components =
        (ofString h).components ++ relativeComponents r ↔
      r.toList.head? ≠ some '/' ∨ (ofString h).components = [.root] := by
  by_cases hr : r.toList.head? = some '/'
  · rw [expandHome_slash rfl hr, components_of_isAbsolute ((isAbsolute_ofString r).mpr hr),
      components_of_isAbsolute habs]
    simp [hr]
  · rw [expandHome_tilde, components_join (isEmpty_ofString (ne_empty_of_isAbsolute habs))
      (isRelative_ofString hr) (isCut_ofString r).nonempty, relativeComponents_eq]
    simp [hr]

end Path

/-! ## 3. On the disk -/

namespace Disk

variable {d : Disk} {p q : Path} {key : Key}

/-- Nothing stands against a path that is the beginning of one without fault. -/
theorem pathFault?_of_join (hp : p.isEmpty = false) (hq : q.isAbsolute = false)
    (hne : q.segments ≠ []) (h : pathFault? (p.join q) = none) : pathFault? p = none := by
  obtain ⟨hnul, -, hsize⟩ := pathFault?_eq_none.mp h
  refine pathFault?_eq_none.mpr ⟨?_, hp, ?_⟩
  · rw [Path.join_eq hp hq hne] at hnul
    simp only [Path.hasNul, List.any_eq_false] at hnul ⊢
    intro s hs
    rcases Path.mem_front hs with rfl | hs
    · decide
    · exact hnul s (List.mem_append_left _ hs)
  · rw [Path.text_join hp hq hne, String.utf8ByteSize_append, String.utf8ByteSize_append] at hsize
    omega

/-- **What is found by a relative path behind another one** lies where that one leads, or below it,
if no two dots lead out again. -/
theorem find_join (hp : p.isEmpty = false) (hq : q.isAbsolute = false) (hne : q.segments ≠ [])
    (hup : ∀ s ∈ q.segments, s ≠ "..") (h : d.find (p.join q) = .ok key) :
    ∃ top, d.find p = .ok top ∧ top <+: key := by
  obtain ⟨hfault, hsite⟩ := find_eq_ok.mp h
  obtain ⟨front, hroute, hfront⟩ := d.route_join p hq hne
  rw [site, hroute] at hsite
  obtain ⟨top, htop, hrest⟩ := FileTree.walk_append_ok hsite
  refine ⟨top, find_eq_ok.mpr ⟨pathFault?_of_join hp hq hne hfault, ?_⟩,
    FileTree.prefix_of_walk hup hrest⟩
  rw [site]
  rcases hfront with hfront | hfront
  · rw [hfront, htop]
  · obtain ⟨s, rest, hsegments⟩ := List.exists_cons_of_ne_nil hne
    rw [hsegments] at hrest
    rw [hfront, FileTree.walk_append, htop]
    exact FileTree.walk_blanks (by simp) (FileTree.isDirectory_of_walk_cons hrest)

end Disk

/-! ## 4. What was written -/

/-- **A path that the program goes by**, with the text that a caller or a document has for it. -/
inductive WrittenAs (home : Option String) : String → Path → Prop where
  /-- The project that a caller opens. -/
  | project {context : PlanContext} {arguments : Json} {request : OpenProjectRequest} {plan : Plan}
      {path : Path} {name : Option String} (hhome : context.home = home)
      (hread : Tool.parseArguments OpenProjectRequest arguments = .ok request)
      (hplan : Plan.openProject context arguments = .ok plan)
      (hpath : plan.operation = .openProject path name) : WrittenAs home request.projectPath path
  /-- The directory to which a caller exports. -/
  | output {context : PlanContext} {arguments : Json} {request : ExportBlocksRequest} {plan : Plan}
      {path : Path} {names : Option (List String)} {text : String} (hhome : context.home = home)
      (hread : Tool.parseArguments ExportBlocksRequest arguments = .ok request)
      (hplan : Plan.exportBlocks context arguments = .ok plan)
      (hpath : plan.operation = .exportBlocks names path)
      (htext : request.outputPath = some text) : WrittenAs home text path
  /-- A file that a caller imports. -/
  | file {context : PlanContext} {arguments : Json} {request : ImportBlocksRequest} {plan : Plan}
      {paths : List Path} {folder : Option String} {i : Nat} {text : String} {path : Path}
      (hhome : context.home = home)
      (hread : Tool.parseArguments ImportBlocksRequest arguments = .ok request)
      (hplan : Plan.importBlocks context arguments = .ok plan)
      (hpaths : plan.operation = .importBlocks paths folder)
      (htext : request.paths[i]? = some text) (hpath : paths[i]? = some path) :
      WrittenAs home text path
  /-- Where a document says that blocks are exported to, in either layout. -/
  | configured {document : String} {file : ConfigFile} {config : Config} {text : String}
      (hread : readText ConfigFile document = .ok file)
      (hparse : Config.parse home document = .ok config)
      (htext : (file.exportPath <|> (file.paths.bind (·.projectDefaults)).bind (·.exportPath)) =
        some text) : WrittenAs home text config.exportPath

/-- **The tilde is read alike everywhere.** -/
theorem WrittenAs.path_eq {home : Option String} {text : String} {path : Path}
    (h : WrittenAs home text path) : path = Path.expandHome home text := by
  induction h with
  | project hhome hread hplan hpath =>
    rw [Plan.openProject, hread] at hplan
    dsimp only at hplan
    split at hplan <;> cases hplan
    cases hpath
    rw [hhome]
  | output hhome hread hplan hpath htext =>
    rw [Plan.exportBlocks, hread] at hplan
    cases hplan
    cases hpath
    rw [htext, hhome]
    rfl
  | file hhome hread hplan hpaths htext hpath =>
    rw [Plan.importBlocks, hread] at hplan
    dsimp only at hplan
    split at hplan <;> cases hplan
    cases hpaths
    rw [List.getElem?_map, htext, hhome] at hpath
    exact (Option.some.inj hpath).symm
  | configured hread hparse htext =>
    rw [Config.parse, Config.parseAt, hread] at hparse
    dsimp only at hparse
    split at hparse <;> cases hparse
    rw [Config.ofFile, htext]
    rfl

namespace Path

/-! ## 5. Below the home directory -/

/-- The path lies below the home directory, or is that of the home directory itself: by its
components, and on every disk where it leads somewhere. -/
structure LiesBelow (h : String) (p : Path) : Prop where
  components : ∃ rest, p.components = (ofString h).components ++ rest ∧ .up ∉ rest
  found : ∀ (d : Disk) (key : Key), d.find p = .ok key →
    ∃ top, d.find (ofString h) = .ok top ∧ top <+: key

/-- **What becomes of texts with a tilde**, where there may be a home directory. -/
structure ExpandsTilde (home : Option String) : Prop where
  /-- The components of the home directory stand in front, and those of the rest behind them,
  exactly if the rest does not begin with a slash; or the home directory is the root. -/
  components : ∀ h ∈ home, ∀ r, (expandHome home ("~/" ++ r)).components =
      (ofString h).components ++ relativeComponents r ↔
    r.toList.head? ≠ some '/' ∨ (ofString h).components = [.root]
  /-- A rest that begins with a slash stands for itself. -/
  replaced : home.isSome = true → ∀ r, r.toList.head? = some '/' →
    expandHome home ("~/" ++ r) = ofString r
  /-- What a caller or a document writes with a tilde and without two dots lies below the home
  directory, if no second slash follows. -/
  below : ∀ h ∈ home, ∀ r, r.toList.head? ≠ some '/' → .up ∉ relativeComponents r →
    ∀ p, WrittenAs home ("~/" ++ r) p → LiesBelow h p
  /-- A text without the tilde comes back unchanged, and so does every text without a home
  directory. -/
  unchanged : ∀ s, (home = none ∨ ∀ r, s ≠ "~/" ++ r) →
    expandHome home s = ofString s ∧ (expandHome home s).text = s

theorem liesBelow_of_relative {h r : String} (habs : (ofString h).isAbsolute = true)
    (hr : r.toList.head? ≠ some '/') (hup : .up ∉ relativeComponents r) :
    LiesBelow h (expandHome (some h) ("~/" ++ r)) where
  components := ⟨relativeComponents r, (components_expandHome_iff habs r).mpr (Or.inl hr), hup⟩
  found := by
    intro d key hfind
    rw [expandHome_tilde] at hfind
    exact Disk.find_join (isEmpty_ofString (ne_empty_of_isAbsolute habs))
      (isRelative_ofString hr) (isCut_ofString r).nonempty (up_notMem_iff.mp hup) hfind

/-- **The tilde stands for the home directory**, if that is absolute. -/
theorem expandsTilde_of_absolute {home : Option String}
    (habs : ∀ h ∈ home, (ofString h).isAbsolute = true) : ExpandsTilde home := by
  constructor
  case components =>
    rintro h hh r
    obtain rfl := hh
    exact components_expandHome_iff (habs h rfl) r
  case replaced => exact fun hhome r hr => expandHome_slash hhome hr
  case below =>
    rintro h hh r hr hup p hp
    obtain rfl := hh
    rw [hp.path_eq]
    exact liesBelow_of_relative (habs h rfl) hr hup
  case unchanged =>
    intro s hs
    rw [expandHome_plain hs]
    exact ⟨rfl, text_ofString s⟩

/-- A caller whose home directory is `/home/eng` exports to `~/plant`. -/
theorem writtenAs_output :
    WrittenAs (some "/home/eng") ("~/" ++ "plant") ⟨["", "home", "eng", "plant"]⟩ := by
  let context : PlanContext := ⟨⟨["exports"]⟩, some "/home/eng"⟩
  let arguments : Json := .obj [("session_id", .str "s"), ("output_path", .str "~/plant")]
  have hread : Tool.parseArguments ExportBlocksRequest arguments =
      .ok ⟨"s", none, some "~/plant", none⟩ := rfl
  have hhome : context.home = some "/home/eng" := rfl
  exact .output hhome hread rfl rfl rfl

theorem expandsTilde_engineer :
    (∀ h ∈ some "/home/eng", (ofString h).isAbsolute = true) ∧
    ExpandsTilde (some "/home/eng") ∧
    WrittenAs (some "/home/eng") ("~/" ++ "plant") ⟨["", "home", "eng", "plant"]⟩ ∧
    LiesBelow "/home/eng" ⟨["", "home", "eng", "plant"]⟩ := by
  have habs : ∀ h ∈ some "/home/eng", (ofString h).isAbsolute = true := by
    rintro h ⟨⟩
    rfl
  have hexpands := expandsTilde_of_absolute habs
  refine ⟨habs, hexpands, writtenAs_output, ?_⟩
  exact hexpands.below "/home/eng" rfl "plant" (by decide) (by decide) _ writtenAs_output

/-- **A second slash** leads away from the home directory, though no two dots do. -/
theorem not_behindHome_secondSlash :
    (ofString "/home/eng").isAbsolute = true ∧ .up ∉ relativeComponents "/etc/plant" ∧
    expandHome (some "/home/eng") ("~/" ++ "/etc/plant") = ofString "/etc/plant" ∧
    (expandHome (some "/home/eng") ("~/" ++ "/etc/plant")).components ≠
      (ofString "/home/eng").components ++ relativeComponents "/etc/plant" ∧
    ¬ LiesBelow "/home/eng" (expandHome (some "/home/eng") ("~/" ++ "/etc/plant")) := by
  have hexpand : expandHome (some "/home/eng") ("~/" ++ "/etc/plant") = ofString "/etc/plant" := rfl
  have hhome : (ofString "/home/eng").components = [.root, .name "home", .name "eng"] := rfl
  have hpath : (ofString "/etc/plant").components = [.root, .name "etc", .name "plant"] := rfl
  refine ⟨rfl, by decide, hexpand, ?_, ?_⟩
  · rw [hexpand, hhome, hpath]
    decide
  · rintro ⟨⟨rest, hrest, -⟩, -⟩
    rw [hexpand, hhome, hpath] at hrest
    have hname : Component.name "etc" = .name "home" :=
      (List.cons.inj (List.cons.inj hrest).2).1
    exact absurd hname (by decide)

end Path
end Workbench
