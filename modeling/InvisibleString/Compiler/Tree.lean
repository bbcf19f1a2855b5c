import InvisibleString.Compiler.Compile
import InvisibleString.Lib.Paths

/- # `Compiler.Tree` — the emitted files as a tree of directories

The paths come from fixed names, from slugs and from the file names of packaged skills, and each
is checked alone.

**Proved here.**

    of an accepted input every path is relative and no file overwrites another, and the files can
      be written as a tree exactly when no skill names a file below another of its files
                                                                        (`emits_tree_iff`)
    a skill is accepted with a file that is a directory of another  (`file_as_directory`)
-/

namespace InvisibleString.Compiler

open Json
open Paths
open InvisibleString.Runtime (isSlugOrHyphen)

variable {N : Type}

/-! ## Trees -/

/-- A path of named steps down from the root of the project. -/
def IsRelative (path : JsString) : Prop :=
  ∀ segment ∈ segments (unit '/') path, segment ∉ [[], ascii ".", ascii ".."]

/-- Files that can all be written below one root. -/
structure WritableTree (files : List ProjectFile) : Prop where
  relative : ∀ file ∈ files, IsRelative file.1
  once : OrderedMap.UniqueKeys files
  /-- no file is a directory of another -/
  apart : ∀ file ∈ files, ∀ file' ∈ files, ¬ Below (unit '/') file'.1 file.1

/-- Each file that is set is there in the end, and together they are a tree. -/
def EmitsTree (C : Toolchain N) (deps : CompileDeps N) (result : CompileResult) : Prop :=
  ∃ instructions, result.files = projectFiles C deps instructions result.hash ∧
    WritableTree result.files

/-- No file of the skill lies below `SKILL.md` or below another one. -/
def ResolvedSkill.FilesApart (skill : ResolvedSkill) : Prop :=
  ∀ file ∈ skill.extraFiles, ¬ Below (unit '/') file.1 (ascii "SKILL.md") ∧
    ∀ file' ∈ skill.extraFiles, ¬ Below (unit '/') file'.1 file.1

theorem writableTree_of_apart {files : List ProjectFile}
    (hrelative : ∀ file ∈ files, IsRelative file.1)
    (h : files.Pairwise fun f f' => Apart (unit '/') f.1 f'.1) : WritableTree files where
  relative := hrelative
  once := List.pairwise_map.mpr (h.imp fun hf => (apart_iff.mp hf).1)
  apart := by
    intro file hfile file' hfile'
    refine List.Pairwise.forall_of_forall_of_flip
      (R := fun f f' : ProjectFile => ¬ Below (unit '/') f'.1 f.1) ?_ ?_ ?_ hfile hfile'
    · exact fun _ _ => not_below_self
    · exact h.imp fun hf => (apart_iff.mp hf).2.1
    · exact h.imp fun hf => (apart_iff.mp hf).2.2

/-! ## Slugs and names -/

section

variable {slug slug' path : JsString}

theorem not_mem_slug {c : CodeUnit} (hc : isSlugOrHyphen c = false) (h : isSlug slug = true) :
    c ∉ slug := by
  rw [isSlug, Bool.and_eq_true] at h
  intro hmem
  rw [List.all_eq_true.mp h.2 c hmem] at hc
  cases hc

theorem slug_ne_nil (h : isSlug slug = true) : slug ≠ [] := by
  rintro rfl
  cases h

/-- A slug with an ending is one segment, and no slug. -/
theorem slash_not_mem_append {ending : JsString} (hending : unit '/' ∉ ending)
    (h : isSlug slug = true) : unit '/' ∉ slug ++ ending := by
  intro hmem
  rcases List.mem_append.mp hmem with hmem | hmem
  · exact not_mem_slug (by decide) h hmem
  · exact hending hmem

theorem slug_ne_append {ending : JsString} (hending : unit '.' ∈ ending)
    (h : isSlug slug = true) : slug ≠ slug' ++ ending := by
  intro heq
  refine not_mem_slug (c := unit '.') (by decide) h ?_
  rw [heq]
  exact List.mem_append_right _ hending

theorem named_of_slug (h : isSlug slug = true) : slug ∉ [[], ascii ".", ascii ".."] := by
  intro hmem
  have hdot : unit '.' ∉ slug := not_mem_slug (by decide) h
  rcases List.mem_cons.mp hmem with rfl | hmem
  · exact slug_ne_nil h rfl
  · rcases List.mem_cons.mp hmem with rfl | hmem
    · exact hdot (by decide)
    · rw [List.mem_singleton.mp hmem] at hdot
      exact hdot (by decide)

theorem named_of_length {segment : JsString} (h : 2 < segment.length) :
    segment ∉ [[], ascii ".", ascii ".."] := by
  have hall : ∀ s ∈ [[], ascii ".", ascii ".."], s.length ≤ 2 := by decide
  intro hmem
  exact absurd (hall segment hmem) (by omega)

theorem segments_connection (h : isSlug slug = true) :
    segments (unit '/') (ascii "agent/connections/" ++ slug ++ ascii ".ts") =
      [ascii "agent", ascii "connections", slug ++ ascii ".ts"] := by
  have hpath : ascii "agent/connections/" ++ slug ++ ascii ".ts" =
      ascii "agent" ++ unit '/' :: (ascii "connections" ++ unit '/' :: (slug ++ ascii ".ts")) := by
    rw [List.append_assoc]
    rfl
  rw [hpath, segments_append, segments_append, segments_single (by decide),
    segments_single (by decide), segments_single (slash_not_mem_append (by decide) h)]
  rfl

theorem connection_apart (h : isSlug slug = true) (h' : isSlug slug' = true)
    (hne : slug ≠ slug') :
    Apart (unit '/') (ascii "agent/connections/" ++ slug ++ ascii ".ts")
      (ascii "agent/connections/" ++ slug' ++ ascii ".ts") := by
  rw [Apart, segments_connection h, segments_connection h']
  refine ⟨fun hp => ?_, fun hp => ?_⟩
  · have heq := congrArg (List.drop 2) (hp.eq_of_length rfl)
    exact hne (List.append_cancel_right (List.cons.inj heq).1)
  · have heq := congrArg (List.drop 2) (hp.eq_of_length rfl)
    exact hne (List.append_cancel_right (List.cons.inj heq).1).symm

theorem segments_flatSkill (h : isSlug slug = true) :
    segments (unit '/') (ascii "agent/skills/" ++ slug ++ ascii ".md") =
      [ascii "agent", ascii "skills", slug ++ ascii ".md"] := by
  have hpath : ascii "agent/skills/" ++ slug ++ ascii ".md" =
      ascii "agent" ++ unit '/' :: (ascii "skills" ++ unit '/' :: (slug ++ ascii ".md")) := by
    rw [List.append_assoc]
    rfl
  rw [hpath, segments_append, segments_append, segments_single (by decide),
    segments_single (by decide), segments_single (slash_not_mem_append (by decide) h)]
  rfl

theorem packaged_path (slug path : JsString) :
    ascii "agent/skills/" ++ slug ++ ascii "/" ++ path =
      (ascii "agent/skills/" ++ slug) ++ unit '/' :: path := by
  rw [List.append_assoc]
  rfl

theorem segments_packaged (h : isSlug slug = true) :
    segments (unit '/') (ascii "agent/skills/" ++ slug ++ ascii "/" ++ path) =
      ascii "agent" :: ascii "skills" :: slug :: segments (unit '/') path := by
  have hdirectory : ascii "agent/skills/" ++ slug =
      ascii "agent" ++ unit '/' :: (ascii "skills" ++ unit '/' :: slug) := rfl
  rw [packaged_path, segments_append, hdirectory, segments_append, segments_append,
    segments_single (by decide), segments_single (by decide),
    segments_single (not_mem_slug (by decide) h)]
  rfl

end

/-! ## The files of a skill -/

section

variable {skill skill' : ResolvedSkill} {file file' : ProjectFile}

/-- The paths below the directory of a packaged skill. -/
def ResolvedSkill.innerPaths (skill : ResolvedSkill) : List JsString :=
  ascii "SKILL.md" :: (sortBy Prod.fst skill.extraFiles).map Prod.fst

theorem mem_innerPaths {path : JsString} : path ∈ skill.innerPaths ↔
    path = ascii "SKILL.md" ∨ ∃ file ∈ skill.extraFiles, file.1 = path := by
  rw [ResolvedSkill.innerPaths, List.mem_cons, List.mem_map]
  simp only [mem_sortBy]

/-- A skill has one file of its own name, or a directory. -/
theorem emitSkill_paths (skill : ResolvedSkill) :
    (skill.extraFiles = [] ∧ (emitSkill skill).map Prod.fst =
        [ascii "agent/skills/" ++ skill.slug ++ ascii ".md"]) ∨
      (skill.extraFiles ≠ [] ∧ (emitSkill skill).map Prod.fst =
        skill.innerPaths.map fun path =>
          ascii "agent/skills/" ++ skill.slug ++ ascii "/" ++ path) := by
  rw [emitSkill]
  by_cases h : skill.extraFiles = []
  · refine Or.inl ⟨h, ?_⟩
    rw [if_pos h]
    rfl
  · refine Or.inr ⟨h, ?_⟩
    rw [if_neg h, ResolvedSkill.innerPaths, List.map_cons, List.map_cons, List.map_map,
      List.map_map]
    have hmain : ascii "agent/skills/" ++ skill.slug ++ ascii "/SKILL.md" =
        ascii "agent/skills/" ++ skill.slug ++ ascii "/" ++ ascii "SKILL.md" := by
      rw [List.append_assoc _ (ascii "/")]
      rfl
    rw [hmain]
    rfl

theorem emitSkill_third (hslug : isSlug skill.slug = true) (h : file ∈ emitSkill skill) :
    ∃ third, (segments (unit '/') file.1).take 3 = [ascii "agent", ascii "skills", third] ∧
      (third = skill.slug ∨ third = skill.slug ++ ascii ".md") := by
  have hmem : file.1 ∈ (emitSkill skill).map Prod.fst := List.mem_map_of_mem h
  rcases emitSkill_paths skill with ⟨-, hpaths⟩ | ⟨-, hpaths⟩
  · rw [hpaths, List.mem_singleton] at hmem
    rw [hmem, segments_flatSkill hslug]
    exact ⟨_, rfl, Or.inr rfl⟩
  · rw [hpaths] at hmem
    obtain ⟨path, -, hpath⟩ := List.mem_map.mp hmem
    rw [← hpath, segments_packaged hslug]
    exact ⟨_, rfl, Or.inl rfl⟩

theorem emitSkill_apart (hslug : isSlug skill.slug = true) (hslug' : isSlug skill'.slug = true)
    (hne : skill.slug ≠ skill'.slug) (h : file ∈ emitSkill skill) (h' : file' ∈ emitSkill skill') :
    Apart (unit '/') file.1 file'.1 := by
  obtain ⟨third, htake, hthird⟩ := emitSkill_third hslug h
  obtain ⟨third', htake', hthird'⟩ := emitSkill_third hslug' h'
  have hthirds : third ≠ third' := by
    rcases hthird with rfl | rfl
    · rcases hthird' with rfl | rfl
      · exact hne
      · exact slug_ne_append (by decide) hslug
    · rcases hthird' with rfl | rfl
      · exact (slug_ne_append (by decide) hslug').symm
      · exact fun heq => hne (List.append_cancel_right heq)
  refine Apart.of_take 3 ?_ ?_
  · rw [htake, htake']
    intro hp
    cases hp.eq_of_length rfl
    exact hthirds rfl
  · rw [htake, htake']
    intro hp
    cases hp.eq_of_length rfl
    exact hthirds rfl

theorem validateSkill_paths (h : validateSkill skill = .ok ()) :
    ∀ file ∈ skill.extraFiles, isSkillPath file.1 = true := by
  rw [validateSkill, then_ok, then_ok, checkAll_ok] at h
  exact fun file hf => check_ok.mp (h.2.2 file hf)

theorem isSkillPath_spec {path : JsString} (h : isSkillPath path = true) :
    IsRelative path ∧ path ≠ ascii "SKILL.md" := by
  simp only [isSkillPath, Bool.and_eq_true, decide_eq_true_eq, List.all_eq_true] at h
  exact ⟨h.1.2, h.2⟩

theorem isRelative_of_mem_emitSkill (hslug : isSlug skill.slug = true)
    (hskill : validateSkill skill = .ok ()) (h : file ∈ emitSkill skill) : IsRelative file.1 := by
  have hmem : file.1 ∈ (emitSkill skill).map Prod.fst := List.mem_map_of_mem h
  rcases emitSkill_paths skill with ⟨-, hpaths⟩ | ⟨-, hpaths⟩
  · rw [hpaths, List.mem_singleton] at hmem
    rw [IsRelative, hmem, segments_flatSkill hslug, List.forall_mem_cons, List.forall_mem_cons,
      List.forall_mem_singleton]
    refine ⟨by decide, by decide, named_of_length ?_⟩
    rw [List.length_append]
    exact Nat.lt_of_lt_of_le (by decide) (Nat.le_add_left _ _)
  · rw [hpaths] at hmem
    obtain ⟨path, hpath, heq⟩ := List.mem_map.mp hmem
    rw [IsRelative, ← heq, segments_packaged hslug, List.forall_mem_cons, List.forall_mem_cons,
      List.forall_mem_cons]
    refine ⟨by decide, by decide, named_of_slug hslug, ?_⟩
    rcases mem_innerPaths.mp hpath with rfl | ⟨extra, hextra, rfl⟩
    · decide
    · exact (isSkillPath_spec (validateSkill_paths hskill extra hextra)).1

/-- What holds of the paths inside a skill holds of its files, if it does not see the directory. -/
theorem emitSkill_pairwise {R : JsString → JsString → Prop}
    (happend : ∀ directory p q, R p q → R (directory ++ unit '/' :: p) (directory ++ unit '/' :: q))
    (hskill : validateSkill skill = .ok ())
    (hmain : ∀ file ∈ skill.extraFiles, file.1 ≠ ascii "SKILL.md" → R (ascii "SKILL.md") file.1)
    (hextra : ∀ file ∈ skill.extraFiles, ∀ file' ∈ skill.extraFiles, file.1 ≠ file'.1 →
      R file.1 file'.1) :
    (emitSkill skill).Pairwise fun f f' => R f.1 f'.1 := by
  rw [← List.pairwise_map (f := Prod.fst)]
  rcases emitSkill_paths skill with ⟨-, hpaths⟩ | ⟨-, hpaths⟩
  · rw [hpaths]
    exact List.pairwise_singleton _ _
  · rw [hpaths, List.pairwise_map]
    have hinner : skill.innerPaths.Pairwise R := by
      rw [ResolvedSkill.innerPaths, List.pairwise_cons]
      constructor
      · intro path hpath
        obtain ⟨file, hfile, rfl⟩ := List.mem_map.mp hpath
        have hin := mem_sortBy.mp hfile
        exact hmain file hin (isSkillPath_spec (validateSkill_paths hskill file hin)).2
      · have hunique : (sortBy Prod.fst skill.extraFiles).Pairwise fun f f' => f.1 ≠ f'.1 :=
          List.pairwise_map.mp
            (((sortBy_perm Prod.fst skill.extraFiles).map Prod.fst).nodup_iff.mpr
              (extraFiles_once skill))
        rw [List.pairwise_map]
        exact hunique.imp_of_mem fun hf hf' hne =>
          hextra _ (mem_sortBy.mp hf) _ (mem_sortBy.mp hf') hne
    refine hinner.imp fun hR => ?_
    rw [packaged_path, packaged_path]
    exact happend _ _ _ hR

end

/-! ## The files of a project -/

section

variable {C : Toolchain N} {deps : CompileDeps N}

/-- The paths that no input names. -/
def fixedPaths : List JsString :=
  ["package.json", "tsconfig.json", "agent/agent.ts", "agent/instructions.md",
    "agent/lib/platform-auth.ts", "agent/lib/env.ts", "agent/lib/platform-token.ts",
    "agent/channels/eve.ts"].map ascii

/-- The files of `projectFiles` whose paths are fixed. -/
def fixedFiles (C : Toolchain N) (deps : CompileDeps N) (instructions hash : JsString) :
    List ProjectFile :=
  let kinds := (sortedConnections deps).map fun c => c.auth.kind
  [(ascii "package.json", emitPackageJson C.numbers deps),
    (ascii "tsconfig.json", C.templates.tsconfig),
    (ascii "agent/agent.ts", emitAgentTs C.templates deps.resolvedModel),
    (ascii "agent/instructions.md", instructions),
    (ascii "agent/lib/platform-auth.ts", emitPlatformAuthLib C.templates deps.dev hash)] ++
  (if kinds.any (· ≠ ascii "none") then [(ascii "agent/lib/env.ts", C.templates.envLib)] else []) ++
  (if kinds.any (· = ascii "oauth") then
    [(ascii "agent/lib/platform-token.ts", C.templates.platformTokenLib)] else []) ++
  [(ascii "agent/channels/eve.ts", emitEveChannel deps.workspaceSlug deps.agentSlug)]

def connectionFiles (C : Toolchain N) (deps : CompileDeps N) : List ProjectFile :=
  (sortedConnections deps).map fun c =>
    (ascii "agent/connections/" ++ c.slug ++ ascii ".ts", emitConnection C.cases c)

theorem projectFiles_families (instructions hash : JsString) :
    projectFiles C deps instructions hash = fixedFiles C deps instructions hash ++
      connectionFiles C deps ++ (sortedSkills deps).flatMap emitSkill := rfl

theorem fixedFiles_sublist (instructions hash : JsString) :
    ((fixedFiles C deps instructions hash).map Prod.fst).Sublist fixedPaths := by
  simp only [fixedFiles, List.map_append, List.map_cons, List.map_nil]
  have hif : ∀ (c : Prop) [Decidable c] (file : ProjectFile),
      ((if c then [file] else []).map Prod.fst).Sublist [file.1] := by
    intro c _ file
    split
    · exact List.Sublist.refl _
    · exact List.nil_sublist _
  exact ((List.Sublist.refl _).append (hif _ _)).append (hif _ _) |>.append (List.Sublist.refl _)

/-- What the checks say of the slugs and the names. -/
structure Named (deps : CompileDeps N) : Prop where
  connections : ∀ c ∈ sortedConnections deps, isSlug c.slug = true
  connectionsOnce : ((sortedConnections deps).map ResolvedMcpConnection.slug).Nodup
  skills : ∀ s ∈ sortedSkills deps, isSlug s.slug = true
  skillsOnce : ((sortedSkills deps).map ResolvedSkill.slug).Nodup
  files : ∀ s ∈ sortedSkills deps, validateSkill s = .ok ()

theorem named_of_valid {definition : AgentDefinition}
    (h : validateInput C definition deps = .ok ()) : Named deps := by
  rw [validateInput, then_ok, then_ok, then_ok, then_ok, checkAll_ok, checkAll_ok] at h
  obtain ⟨-, hconnections, hskills, -, hfiles⟩ := h
  obtain ⟨-, -, hslugs, honce⟩ := validateJoin_ok.mp hconnections
  obtain ⟨-, -, hskillSlugs, hskillsOnce⟩ := validateJoin_ok.mp hskills
  rw [List.map_map] at hslugs honce hskillSlugs hskillsOnce
  constructor
  · exact fun c hc => hslugs _ (List.mem_map_of_mem (f := Prod.snd ∘ fun c => (c.id, c.slug))
      (mem_sortBy.mp hc))
  · exact ((sortBy_perm _ _).map _).nodup_iff.mpr honce
  · exact fun s hs => hskillSlugs _ (List.mem_map_of_mem (f := Prod.snd ∘ fun s => (s.id, s.slug))
      (mem_sortBy.mp hs))
  · exact ((sortBy_perm _ _).map _).nodup_iff.mpr hskillsOnce
  · exact fun s hs => hfiles s (mem_sortBy.mp hs)

theorem projectFiles_relative (h : Named deps) (instructions hash : JsString) :
    ∀ file ∈ projectFiles C deps instructions hash, IsRelative file.1 := by
  have hfixed : ∀ path ∈ fixedPaths, IsRelative path := by
    unfold IsRelative
    decide
  intro file hfile
  rw [projectFiles_families] at hfile
  rcases List.mem_append.mp hfile with hfile | hfile
  · rcases List.mem_append.mp hfile with hfile | hfile
    · exact hfixed _ ((fixedFiles_sublist instructions hash).subset (List.mem_map_of_mem hfile))
    · obtain ⟨c, hc, rfl⟩ := List.mem_map.mp hfile
      rw [IsRelative, segments_connection (h.connections c hc), List.forall_mem_cons,
        List.forall_mem_cons, List.forall_mem_singleton]
      refine ⟨by decide, by decide, named_of_length ?_⟩
      rw [List.length_append]
      exact Nat.lt_of_lt_of_le (by decide) (Nat.le_add_left _ _)
  · obtain ⟨skill, hskill, hfile⟩ := List.mem_flatMap.mp hfile
    exact isRelative_of_mem_emitSkill (h.skills skill hskill) (h.files skill hskill) hfile

/-- Across the families and across the skills all paths are apart; what is left is within a
skill. -/
theorem projectFiles_pairwise {R : JsString → JsString → Prop}
    (hR : ∀ {p q}, Apart (unit '/') p q → R p q) (h : Named deps)
    (hskills : ∀ skill ∈ sortedSkills deps, (emitSkill skill).Pairwise fun f f' => R f.1 f'.1)
    (instructions hash : JsString) :
    (projectFiles C deps instructions hash).Pairwise fun f f' => R f.1 f'.1 := by
  -- two segments tell the families apart
  have hfixedPaths : fixedPaths.Pairwise (Apart (unit '/')) := by
    unfold Apart
    decide +kernel
  have hconnection : ∀ path ∈ fixedPaths,
      ¬ (segments (unit '/') path).take 2 <+: [ascii "agent", ascii "connections"] ∧
        ¬ [ascii "agent", ascii "connections"] <+: (segments (unit '/') path).take 2 := by
    decide +kernel
  have hskill : ∀ path ∈ fixedPaths,
      ¬ (segments (unit '/') path).take 2 <+: [ascii "agent", ascii "skills"] ∧
        ¬ [ascii "agent", ascii "skills"] <+: (segments (unit '/') path).take 2 := by
    decide +kernel
  have htake : ∀ skill ∈ sortedSkills deps, ∀ file ∈ emitSkill skill,
      (segments (unit '/') file.1).take 2 = [ascii "agent", ascii "skills"] := by
    intro skill hs file hfile
    obtain ⟨third, hthree, -⟩ := emitSkill_third (h.skills skill hs) hfile
    have htwo := congrArg (List.take 2) hthree
    rw [List.take_take] at htwo
    exact htwo
  rw [projectFiles_families, List.pairwise_append, List.pairwise_append]
  refine ⟨⟨?_, ?_, ?_⟩, ?_, ?_⟩
  · exact (List.pairwise_map.mp (hfixedPaths.sublist (fixedFiles_sublist _ _))).imp hR
  · rw [connectionFiles, List.pairwise_map]
    refine (List.pairwise_map.mp h.connectionsOnce).imp_of_mem fun hc hc' hne => hR ?_
    exact connection_apart (h.connections _ hc) (h.connections _ hc') hne
  · intro f hf f' hf'
    obtain ⟨c, hc, rfl⟩ := List.mem_map.mp hf'
    have hin := (fixedFiles_sublist instructions hash).subset (List.mem_map_of_mem hf)
    refine hR (Apart.of_take 2 ?_ ?_)
    · rw [segments_connection (h.connections c hc)]
      exact (hconnection _ hin).1
    · rw [segments_connection (h.connections c hc)]
      exact (hconnection _ hin).2
  · rw [List.pairwise_flatMap]
    refine ⟨hskills, ?_⟩
    refine (List.pairwise_map.mp h.skillsOnce).imp_of_mem fun hs hs' hne f hf f' hf' => hR ?_
    exact emitSkill_apart (h.skills _ hs) (h.skills _ hs') hne hf hf'
  · intro f hf f' hf'
    obtain ⟨skill, hs, hf'⟩ := List.mem_flatMap.mp hf'
    have htwo := htake skill hs f' hf'
    rcases List.mem_append.mp hf with hf | hf
    · have hin := (fixedFiles_sublist instructions hash).subset (List.mem_map_of_mem hf)
      refine hR (Apart.of_take 2 ?_ ?_)
      · rw [htwo]
        exact (hskill _ hin).1
      · rw [htwo]
        exact (hskill _ hin).2
    · obtain ⟨c, hc, rfl⟩ := List.mem_map.mp hf
      refine hR (Apart.of_take 2 ?_ ?_)
      · rw [htwo, segments_connection (h.connections c hc)]
        show ¬ [ascii "agent", ascii "connections"] <+: [ascii "agent", ascii "skills"]
        decide
      · rw [htwo, segments_connection (h.connections c hc)]
        show ¬ [ascii "agent", ascii "skills"] <+: [ascii "agent", ascii "connections"]
        decide

theorem projectFiles_once (h : Named deps) (instructions hash : JsString) :
    OrderedMap.UniqueKeys (projectFiles C deps instructions hash) := by
  refine List.pairwise_map.mpr (projectFiles_pairwise (R := fun p q => p ≠ q)
    (fun hapart => (apart_iff.mp hapart).1) h (fun skill hskill => ?_) instructions hash)
  refine emitSkill_pairwise (fun directory p q hne heq => ?_) (h.files skill hskill)
    (fun _ _ hne => hne.symm) (fun _ _ _ _ hne => hne)
  exact hne (List.cons.inj (List.append_cancel_left heq)).2

theorem emitSkill_filesApart {skill : ResolvedSkill} (hskill : validateSkill skill = .ok ())
    (h : skill.FilesApart) : (emitSkill skill).Pairwise fun f f' => Apart (unit '/') f.1 f'.1 := by
  refine emitSkill_pairwise (fun directory _ _ => Apart.append directory) hskill ?_ ?_
  · intro file hfile hne
    refine apart_iff.mpr ⟨hne.symm, (h file hfile).1, fun hbelow => ?_⟩
    have hin : unit '/' ∈ ascii "SKILL.md" :=
      hbelow.subset (List.mem_append_right _ (List.mem_singleton.mpr rfl))
    exact absurd hin (by decide)
  · intro file hfile file' hfile' hne
    exact apart_iff.mpr ⟨hne, (h file hfile).2 file' hfile', (h file' hfile').2 file hfile⟩

theorem mem_projectFiles_of_skill {skill : ResolvedSkill} {path : JsString}
    (hskill : skill ∈ deps.skills) (hfiles : skill.extraFiles ≠ [])
    (hpath : path ∈ skill.innerPaths) (instructions hash : JsString) :
    ∃ file ∈ projectFiles C deps instructions hash,
      file.1 = (ascii "agent/skills/" ++ skill.slug) ++ unit '/' :: path := by
  rcases emitSkill_paths skill with ⟨hnone, -⟩ | ⟨-, hpaths⟩
  · exact absurd hnone hfiles
  · have hmem : ascii "agent/skills/" ++ skill.slug ++ ascii "/" ++ path ∈
        (emitSkill skill).map Prod.fst := by
      rw [hpaths]
      exact List.mem_map_of_mem hpath
    obtain ⟨file, hfile, heq⟩ := List.mem_map.mp hmem
    refine ⟨file, ?_, heq.trans (packaged_path _ _)⟩
    rw [projectFiles_families]
    exact List.mem_append_right _ (List.mem_flatMap.mpr ⟨skill, mem_sortBy.mpr hskill, hfile⟩)

theorem compile_files {definition : JsValue N} {result : CompileResult}
    (h : compile C definition deps = .ok result) :
    Named deps ∧ ∃ instructions, result.files = projectFiles C deps instructions result.hash := by
  obtain ⟨parsed, instructions, text, haccepted, rfl⟩ := compile_ok.mp h
  have hnamed := named_of_valid haccepted.valid
  exact ⟨hnamed, instructions, OrderedMap.setAll_nil_of_unique
    (projectFiles_once hnamed instructions (C.sha256 text))⟩

end

/-! ## The tree -/

/-- What an accepted input emits is a tree exactly when no skill names a file as a directory of
another. -/
theorem emits_tree_iff (C : Toolchain N) {definition : JsValue N} {deps : CompileDeps N}
    {result : CompileResult} (h : compile C definition deps = .ok result) :
    EmitsTree C deps result ↔ ∀ skill ∈ deps.skills, skill.FilesApart := by
  obtain ⟨hnamed, instructions, hall⟩ := compile_files h
  constructor
  · rintro ⟨instructions', hfiles, htree⟩ skill hskill
    rw [hfiles] at htree
    -- what is below another name inside the skill is so in the project
    have hinner : ∀ path ∈ skill.innerPaths, ∀ path' ∈ skill.innerPaths,
        skill.extraFiles ≠ [] → ¬ Below (unit '/') path' path := by
      intro path hpath path' hpath' hextra hbelow
      obtain ⟨file, hfile, heq⟩ := mem_projectFiles_of_skill (C := C) hskill hextra hpath
        instructions' result.hash
      obtain ⟨file', hfile', heq'⟩ := mem_projectFiles_of_skill (C := C) hskill hextra hpath'
        instructions' result.hash
      refine htree.apart file hfile file' hfile' ?_
      rw [heq, heq']
      exact hbelow.append _
    intro file hfile
    have hextra := List.ne_nil_of_mem hfile
    have hin : file.1 ∈ skill.innerPaths := mem_innerPaths.mpr (Or.inr ⟨file, hfile, rfl⟩)
    refine ⟨hinner _ (mem_innerPaths.mpr (Or.inl rfl)) _ hin hextra, fun file' hfile' => ?_⟩
    exact hinner _ hin _ (mem_innerPaths.mpr (Or.inr ⟨file', hfile', rfl⟩)) hextra
  · intro hskills
    refine ⟨instructions, hall, ?_⟩
    rw [hall]
    refine writableTree_of_apart (projectFiles_relative hnamed _ _)
      (projectFiles_pairwise id hnamed (fun skill hskill => ?_) _ _)
    exact emitSkill_filesApart (hnamed.files skill hskill) (hskills skill (mem_sortBy.mp hskill))

/-! ## Two skills -/

/-- A packaged skill with these files. -/
def filesSkill (files : List (String × String)) (once : OrderedMap.UniqueKeys
    (files.map fun f => (ascii f.1, ascii f.2))) : ResolvedSkill :=
  ⟨ascii "guide", ascii "guide", ascii "A guide", ascii "Read.", some ⟨_, once⟩⟩

def skillDefinition : JsValue Int :=
  .obj [(ascii "persona", .str (ascii "Help.")), (ascii "model", .obj []),
    (ascii "context", .obj [(ascii "skillIds", strings [ascii "guide"])])]

def skillParsed : AgentDefinition :=
  ⟨ascii "Help.", ⟨.balanced, none, none⟩, ⟨[], [ascii "guide"]⟩⟩

def skillDeps (skill : ResolvedSkill) : CompileDeps Int :=
  { twoConnections [] with skills := [skill] }

/-- Any such skill whose checks pass is accepted. -/
theorem skillAccepted (skill : ResolvedSkill)
    (hvalid : (validateInput plainToolchain skillParsed (skillDeps skill)).toBool = true)
    (hrendered : (renderInstructions skillParsed.persona []
      ((sortedSkills (skillDeps skill)).map ResolvedSkill.entry)).toBool = true)
    (hcanonical : (normalize
      (hashInput COMPILER_VERSION (skillParsed, skillDeps skill))).toBool = true) :
    ∃ result, compile plainToolchain skillDefinition (skillDeps skill) = .ok result := by
  obtain ⟨_, hvalid⟩ := ok_of_toBool hvalid
  obtain ⟨instructions, hrendered⟩ := ok_of_toBool hrendered
  rw [← canonicalJson_toBool plainToolchain.numbers] at hcanonical
  obtain ⟨text, hcanonical⟩ := ok_of_toBool hcanonical
  exact ⟨_, compile_ok.mpr ⟨skillParsed, instructions, text,
    ⟨rfl, hvalid, hrendered, hcanonical⟩, rfl⟩⟩

def nestedSkill : ResolvedSkill :=
  filesSkill [("notes/today.md", "Today"), ("notes/SKILL.md", "Notes")] (of_decide_eq_true rfl)

def clashingSkill : ResolvedSkill :=
  filesSkill [("notes", "Notes"), ("notes/today.md", "Today")] (of_decide_eq_true rfl)

theorem emits_tree_iff_nested :
    ∃ result, compile plainToolchain skillDefinition (skillDeps nestedSkill) = .ok result ∧
      EmitsTree plainToolchain (skillDeps nestedSkill) result := by
  obtain ⟨result, hok⟩ := skillAccepted nestedSkill (by decide +kernel) (by decide +kernel)
    (by decide +kernel)
  refine ⟨result, hok, (emits_tree_iff plainToolchain hok).mpr ?_⟩
  intro skill hskill
  rw [List.mem_singleton.mp hskill, ResolvedSkill.FilesApart]
  unfold Below
  decide +kernel

/-- `notes` is accepted beside `notes/today.md`: a file that is to be a directory. -/
theorem file_as_directory :
    ∃ result, compile plainToolchain skillDefinition (skillDeps clashingSkill) = .ok result ∧
      ascii "agent/skills/guide/notes" ∈ result.files.map Prod.fst ∧
      ascii "agent/skills/guide/notes/today.md" ∈ result.files.map Prod.fst ∧
      ¬ EmitsTree plainToolchain (skillDeps clashingSkill) result := by
  obtain ⟨result, hok⟩ := skillAccepted clashingSkill (by decide +kernel) (by decide +kernel)
    (by decide +kernel)
  obtain ⟨-, instructions, hfiles⟩ := compile_files hok
  have hmem : ∀ path ∈ clashingSkill.innerPaths, ∃ file ∈ result.files,
      file.1 = (ascii "agent/skills/" ++ clashingSkill.slug) ++ unit '/' :: path := by
    intro path hpath
    rw [hfiles]
    exact mem_projectFiles_of_skill (List.mem_singleton.mpr rfl) (by decide) hpath _ _
  obtain ⟨notes, hnotes, hname⟩ := hmem (ascii "notes") (by decide)
  obtain ⟨today, htoday, hname'⟩ := hmem (ascii "notes/today.md") (by decide)
  refine ⟨result, hok, List.mem_map.mpr ⟨notes, hnotes, hname⟩,
    List.mem_map.mpr ⟨today, htoday, hname'⟩, ?_⟩
  rintro ⟨_, -, htree⟩
  refine htree.apart notes hnotes today htoday ?_
  rw [hname, hname']
  exact Below.append _ ⟨ascii "today.md", rfl⟩

end InvisibleString.Compiler
