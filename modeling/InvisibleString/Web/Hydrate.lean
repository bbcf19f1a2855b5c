import InvisibleString.Lib.OrderedMap
import InvisibleString.Shared.Markdown
import Mathlib.Data.List.TakeWhile

/- # `Web.Hydrate` — references as chips

The editor shows a reference of a prompt as a chip.  `hydrateReferences` walks a parsed document
and cuts each text on its references; code blocks and marked texts stay as they are.  The grammar
looks one character back, which may stand in the sibling before.

**Proved here.**

    a text is cut where the grammar has a reference, behind its context  (`cut_split`)
    the tree keeps its characters, its code and its marked texts, and once
    is enough  (`outline_hydrate`, `hydrate_again`)
    every new chip is a reference where it stands if and only if no empty
    sibling hides the character in front of one  (`hydration_iff`)
-/

namespace InvisibleString.Web

open Json Shared

variable {N : Type}

/-! ## Documents -/

inductive NodeType where
  /-- its content is literal -/
  | codeBlock
  | other (name : JsString)
  deriving DecidableEq

/-- A node of the document; a text's `marks` are empty where it has none. -/
inductive Node (N : Type) where
  | text (text : JsString) (marks : List (Value N))
  /-- a chip -/
  | reference (attrs : List (JsString × Value N))
  /-- a node without content -/
  | leaf (type : NodeType) (attrs : List (JsString × Value N))
  | branch (type : NodeType) (attrs : List (JsString × Value N)) (content : List (Node N))

/-- `attrs[name]` where it is a string. -/
def textAttr (name : String) (attrs : List (JsString × Value N)) : Option JsString :=
  match OrderedMap.get? (ascii name) attrs with
  | some (.str s) => some s
  | _ => none

def rawOf (attrs : List (JsString × Value N)) : JsString := (textAttr "raw" attrs).getD []

mutual

/-- What the characters of a node are. -/
def visibleText : Node N → JsString
  | .text text _ => text
  | .reference attrs => rawOf attrs
  | .leaf _ attrs => rawOf attrs
  | .branch _ attrs content =>
    match textAttr "raw" attrs with
    | some raw => raw
    | none => visibleTexts content

def visibleTexts : List (Node N) → JsString
  | [] => []
  | node :: nodes => visibleText node ++ visibleTexts nodes

end

/-! ## Hydration -/

/-- A reference's `kind`. -/
def kindName : ReferenceKind → JsString
  | .trigger _ => ascii "trigger"
  | .step _ _ => ascii "step"
  | .state _ => ascii "state"
  | .item _ => ascii "item"
  | .now => ascii "now"
  | .skill _ => ascii "skill"
  | .connection _ => ascii "connection"

def chipNode (ref : ParsedReference) : Node N :=
  .reference [(ascii "raw", .str ref.raw), (ascii "kind", .str (kindName ref.kind))]

/-- The loop of `splitOnReferences`: the pieces, and the cursor behind them. -/
def cutPieces (offset : Nat) (text : JsString) (marks : List (Value N)) (cursor : Nat) :
    List ParsedReference → List (Node N) × Nat
  | [] => ([], cursor)
  | ref :: refs =>
    -- a match that begins in the node before
    if ref.start < cursor + offset then cutPieces offset text marks cursor refs
    else
      let start := ref.start - offset
      let (pieces, last) := cutPieces offset text marks (ref.stop - offset) refs
      ((if start > cursor then [.text ((text.drop cursor).take (start - cursor)) marks] else []) ++
        chipNode ref :: pieces, last)

def splitOnReferences (text : JsString) (marks : List (Value N)) (previousChar : JsString) :
    List (Node N) :=
  let (pieces, cursor) :=
    cutPieces previousChar.length text marks 0 (parseReferences (previousChar ++ text))
  if pieces.length = 0 then [.text text marks]
  else if cursor < text.length then pieces ++ [.text (text.drop cursor) marks]
  else pieces

/-- `text.slice(-1)`. -/
def lastChar (text : JsString) : JsString := text.getLast?.toList

mutual

def hydrateNode : Node N → Node N
  | .text text marks => .text text marks
  | .reference attrs => .reference attrs
  | .leaf type attrs => .leaf type attrs
  | .branch type attrs content =>
    if type = .codeBlock then .branch type attrs content
    else .branch type attrs (hydrateChildren [] content)

def hydrateChildren (previousChar : JsString) : List (Node N) → List (Node N)
  | [] => []
  | .text text marks :: children =>
    (if marks.length > 0 then [.text text marks]
      else splitOnReferences text marks previousChar) ++ hydrateChildren (lastChar text) children
  | .reference attrs :: children =>
    .reference attrs :: hydrateChildren (lastChar (rawOf attrs)) children
  | .leaf type attrs :: children => .leaf type attrs :: hydrateChildren [] children
  | .branch type attrs content :: children =>
    hydrateNode (.branch type attrs content) :: hydrateChildren [] children

end

def hydrateReferences (doc : Node N) : Node N := hydrateNode doc

/-! ## What a tree says -/

/-- A tree by its characters, with its code and its marked texts as they are. -/
inductive Outline (N : Type) where
  | unit (c : CodeUnit)
  | kept (node : Node N)
  | node (type : NodeType) (attrs : List (JsString × Value N)) (content : List (Outline N))

mutual

def outline : Node N → List (Outline N)
  | .text text marks => if marks.length > 0 then [.kept (.text text marks)] else text.map .unit
  | .reference attrs => (rawOf attrs).map .unit
  | .leaf type attrs => [.kept (.leaf type attrs)]
  | .branch type attrs content =>
    if type = .codeBlock then [.kept (.branch type attrs content)]
    else [.node type attrs (outlines content)]

def outlines : List (Node N) → List (Outline N)
  | [] => []
  | node :: nodes => outline node ++ outlines nodes

end

/-- A chip with the character in front of it among its siblings. -/
structure Chip where
  before : Option CodeUnit
  raw : JsString
  kind : Option JsString
  deriving DecidableEq

/-- The last character of a run, behind `text`. -/
def runLast (before : Option CodeUnit) (text : JsString) : Option CodeUnit :=
  text.getLast?.or before

mutual

/-- The chips outside of code blocks. -/
def chips : Node N → List Chip
  | .text _ _ => []
  | .reference attrs => [⟨none, rawOf attrs, textAttr "kind" attrs⟩]
  | .leaf _ _ => []
  | .branch type _ content => if type = .codeBlock then [] else chipsIn none content

def chipsIn (before : Option CodeUnit) : List (Node N) → List Chip
  | [] => []
  | .text text _ :: nodes => chipsIn (runLast before text) nodes
  | .reference attrs :: nodes =>
    ⟨before, rawOf attrs, textAttr "kind" attrs⟩ :: chipsIn (runLast before (rawOf attrs)) nodes
  | .leaf _ _ :: nodes => chipsIn none nodes
  | .branch type attrs content :: nodes => chips (.branch type attrs content) ++ chipsIn none nodes

end

/-- One reference of its kind, where the grammar has one. -/
structure Chip.Proper (chip : Chip) : Prop where
  free : chip.before.any isBlocking = false
  one : ∃ ref, parseReferences chip.raw = [ref] ∧ ref.raw = chip.raw ∧
    chip.kind = some (kindName ref.kind)

/-- What the editor relies on. -/
structure Keeps (doc : Node N) : Prop where
  visible : visibleText (hydrateReferences doc) = visibleText doc
  outline : outline (hydrateReferences doc) = outline doc
  chips : ∃ fresh, (chips (hydrateReferences doc)).Perm (chips doc ++ fresh) ∧
    ∀ chip ∈ fresh, chip.Proper
  again : hydrateReferences (hydrateReferences doc) = hydrateReferences doc

/-! ## The references of a text -/

/-- The name of the reference that `s` begins with. -/
def matchHere (before : Option CodeUnit) : JsString → Option JsString
  | [] => none
  | c :: s => if c == unit '@' && !before.any isBlocking then dottedName s else none

theorem scan_none {before : Option CodeUnit} {c : CodeUnit} {s : JsString}
    (h : matchHere before (c :: s) = none) (start : Nat) :
    scanReferences 0 before start (c :: s) = scanReferences 0 (some c) (start + 1) s := by
  rw [matchHere] at h
  rw [scanReferences, h]

theorem scan_some {before : Option CodeUnit} {c : CodeUnit} {s name : JsString}
    (h : matchHere before (c :: s) = some name) (start : Nat) :
    scanReferences 0 before start (c :: s) =
      classify start name :: scanReferences name.length (some c) (start + 1) s := by
  rw [matchHere] at h
  rw [scanReferences, h]

theorem matchHere_eq_some {before : Option CodeUnit} {c : CodeUnit} {s name : JsString} :
    matchHere before (c :: s) = some name ↔
      c = unit '@' ∧ before.any isBlocking = false ∧ dottedName s = some name := by
  rw [matchHere]
  by_cases hc : (c == unit '@' && !before.any isBlocking) = true
  · rw [if_pos hc]
    rw [Bool.and_eq_true, beq_iff_eq, Bool.not_eq_true'] at hc
    exact ⟨fun h => ⟨hc.1, hc.2, h⟩, fun h => h.2.2⟩
  · rw [if_neg hc]
    refine iff_of_false (fun h => Option.some_ne_none _ h.symm) ?_
    rintro ⟨rfl, hfree, -⟩
    exact hc (by rw [hfree]; rfl)

/-- An at-sign begins every reference. -/
theorem matchHere_ne {before : Option CodeUnit} {c : CodeUnit} (h : c ≠ unit '@') (s : JsString) :
    matchHere before (c :: s) = none :=
  if_neg fun hc => h (beq_iff_eq.mp (Bool.and_eq_true_iff.mp hc).1)

theorem scan_skip {skip : Nat} {s : JsString} (h : unit '@' ∉ s.take skip)
    (before : Option CodeUnit) (start : Nat) :
    scanReferences skip before start s = scanReferences 0 before start s := by
  induction s generalizing skip before start with
  | nil => cases skip <;> rfl
  | cons c s ih =>
    cases skip with
    | zero => rfl
    | succ skip =>
      rw [List.take_succ_cons, List.mem_cons, not_or] at h
      rw [scan_none (matchHere_ne (Ne.symm h.1) s), ← ih h.2]
      rfl

theorem scan_pass {r : JsString} (h : unit '@' ∉ r) (rest : JsString) (before : Option CodeUnit)
    (start : Nat) : scanReferences 0 before start (r ++ rest) =
      scanReferences 0 (runLast before r) (start + r.length) rest := by
  induction r generalizing before start with
  | nil => rfl
  | cons c r ih =>
    rw [List.mem_cons, not_or] at h
    rw [List.cons_append, scan_none (matchHere_ne (Ne.symm h.1) _), ih h.2, List.length_cons,
      runLast, runLast, List.getLast?_cons, Nat.add_assoc, Nat.add_comm 1]
    cases r.getLast? with
    | none => rfl
    | some d => rfl

/-- No reference begins in `s`. -/
def NoReference (before : Option CodeUnit) (s : JsString) : Prop :=
  ∀ start, scanReferences 0 before start s = []

/-- The references of `s` with the text between them; `raw` is an at-sign and `r`. -/
inductive Found : Option CodeUnit → Nat → JsString → List ParsedReference → Prop
  | none {before : Option CodeUnit} {start : Nat} {s : JsString} (h : NoReference before s) :
      Found before start s []
  | ref {before : Option CodeUnit} {start : Nat} {front r rest name : JsString}
      {refs : List ParsedReference} (hfront : NoReference before front)
      (hhere : matchHere (runLast before front) (unit '@' :: (r ++ rest)) = some name)
      (hraw : (classify (start + front.length) name).raw = unit '@' :: r)
      (h : Found (runLast (some (unit '@')) r) (start + front.length + (r.length + 1)) rest refs) :
      Found before start (front ++ unit '@' :: (r ++ rest))
        (classify (start + front.length) name :: refs)

theorem noReference_nil (before : Option CodeUnit) : NoReference before [] := fun _ => rfl

theorem NoReference.cons {before : Option CodeUnit} {c : CodeUnit} {s : JsString}
    (hc : matchHere before (c :: s) = none) (h : NoReference (some c) s) :
    NoReference before (c :: s) := fun start => (scan_none hc start).trans (h _)

theorem runLast_cons (before : Option CodeUnit) (c : CodeUnit) (s : JsString) :
    runLast before (c :: s) = runLast (some c) s := by
  rw [runLast, runLast, List.getLast?_cons]
  cases s.getLast? with
  | none => rfl
  | some d => rfl

/-- A unit that begins no reference belongs to the text in front. -/
theorem Found.cons {before : Option CodeUnit} {c : CodeUnit} {start : Nat} {s : JsString}
    {refs : List ParsedReference} (hc : matchHere before (c :: s) = Option.none)
    (h : Found (some c) (start + 1) s refs) : Found before start (c :: s) refs := by
  cases h with
  | none h => exact .none (h.cons hc)
  | @ref _ _ front r rest name refs hfront hhere hraw h =>
    have hlength : start + 1 + front.length = start + (c :: front).length := by
      rw [List.length_cons]
      omega
    rw [hlength] at hraw h ⊢
    rw [← runLast_cons before] at hhere
    suffices hmatch : matchHere before (c :: front) = Option.none by
      have hfound : Found before start ((c :: front) ++ unit '@' :: (r ++ rest)) _ :=
        .ref (.cons hmatch hfront) hhere hraw h
      exact hfound
    -- `front` has the same letter behind `c`, or none
    cases hmatch : matchHere before (c :: front) with
    | none => rfl
    | some name' =>
      obtain ⟨rfl, hfree, hname⟩ := matchHere_eq_some.mp hmatch
      have hletter : (dottedName front).isSome = true := by rw [hname]; rfl
      rw [dottedName_isSome] at hletter
      have hsome : (dottedName (front ++ unit '@' :: (r ++ rest))).isSome = true := by
        rw [dottedName_isSome]
        cases front with
        | nil => cases hletter
        | cons d front => exact hletter
      obtain ⟨name'', hname''⟩ := Option.isSome_iff_exists.mp hsome
      rw [matchHere_eq_some.mpr ⟨rfl, hfree, hname''⟩] at hc
      cases hc

theorem found_scan (s : JsString) (before : Option CodeUnit) (start : Nat) :
    Found before start s (scanReferences 0 before start s) := by
  induction hn : s.length using Nat.strongRecOn generalizing s before start with
  | ind n ih =>
    cases s with
    | nil => exact .none (noReference_nil before)
    | cons c s =>
      rw [List.length_cons] at hn
      cases hmatch : matchHere before (c :: s) with
      | none =>
        rw [scan_none hmatch]
        exact (ih s.length (by omega) s (some c) (start + 1) rfl).cons hmatch
      | some name =>
        obtain ⟨rfl, hfree, hname⟩ := matchHere_eq_some.mp hmatch
        have hlongest := dottedName_eq_some.mp hname
        obtain ⟨r, hraw⟩ : ∃ r, (classify start name).raw = unit '@' :: r := ⟨_, classify_raw _ _⟩
        have hbegins : r <+: s := by
          have hprefix := classify_raw_start start name
          rw [hraw] at hprefix
          exact (List.cons_prefix_cons.mp hprefix).2.trans hlongest.begins
        obtain ⟨rest, rfl⟩ := hbegins
        have htake : unit '@' ∉ (r ++ rest).take name.length := by
          rw [← List.prefix_iff_eq_take.mp hlongest.begins]
          exact hlongest.dotted.at_not_mem
        have hr : unit '@' ∉ r := by
          have hprefix := classify_raw_start start name
          rw [hraw] at hprefix
          exact fun hmem => hlongest.dotted.at_not_mem
            ((List.cons_prefix_cons.mp hprefix).2.subset hmem)
        rw [scan_some hmatch, scan_skip htake, scan_pass hr]
        have hrest := ih rest.length (by rw [List.length_append] at hn; omega) rest
          (runLast (some (unit '@')) r) (start + 1 + r.length) rfl
        rw [Nat.add_assoc, Nat.add_comm 1] at hrest ⊢
        have hfound : Found before start ([] ++ unit '@' :: (r ++ rest)) _ :=
          .ref (noReference_nil before) hmatch hraw hrest
        exact hfound

/-! ## A text cut -/

def textNodes (text : JsString) : List (Node N) := if text = [] then [] else [.text text []]

/-- The pieces of `s` behind `before`. -/
inductive Cut : Option CodeUnit → JsString → List (Node N) → Prop
  | rest {before : Option CodeUnit} {s : JsString} (h : NoReference before s) :
      Cut before s (textNodes s)
  | ref {before : Option CodeUnit} {start : Nat} {front r rest name : JsString}
      {pieces : List (Node N)} (hfront : NoReference before front)
      (hhere : matchHere (runLast before front) (unit '@' :: (r ++ rest)) = some name)
      (hraw : (classify start name).raw = unit '@' :: r)
      (h : Cut (runLast (some (unit '@')) r) rest pieces) :
      Cut before (front ++ unit '@' :: (r ++ rest))
        (textNodes front ++ chipNode (classify start name) :: pieces)

theorem cutPieces_ref {offset cursor : Nat} {text : JsString} {marks : List (Value N)}
    {ref : ParsedReference} (h : ¬ ref.start < cursor + offset) (refs : List ParsedReference) :
    cutPieces offset text marks cursor (ref :: refs) =
      ((if ref.start - offset > cursor then
          [.text ((text.drop cursor).take (ref.start - offset - cursor)) marks] else []) ++
        chipNode ref :: (cutPieces offset text marks (ref.stop - offset) refs).1,
      (cutPieces offset text marks (ref.stop - offset) refs).2) := if_neg h

/-- What the loop makes of the references found. -/
theorem cut_pieces {before : Option CodeUnit} {start offset cursor : Nat} {s text : JsString}
    {refs : List ParsedReference} (h : Found before start s refs)
    (hstart : start = cursor + offset) (hs : text.drop cursor = s) :
    Cut before s ((cutPieces (N := N) offset text [] cursor refs).1 ++
      textNodes (text.drop (cutPieces (N := N) offset text [] cursor refs).2)) := by
  induction h generalizing cursor with
  | none h =>
    rw [cutPieces, List.nil_append, hs]
    exact .rest h
  | @ref before start front r rest name refs hfront hhere hraw h ih =>
    subst hstart
    have hlength : (classify (cursor + offset + front.length) name).stop - offset =
        cursor + front.length + (r.length + 1) := by
      rw [classify_stop, hraw, List.length_cons]
      omega
    have hdrop : text.drop (cursor + front.length + (r.length + 1)) = rest := by
      have hsplit : front ++ unit '@' :: (r ++ rest) = (front ++ unit '@' :: r) ++ rest := by
        rw [List.append_assoc]
        rfl
      have hraw : (front ++ unit '@' :: r).length = front.length + (r.length + 1) :=
        List.length_append
      rw [Nat.add_assoc, ← List.drop_drop, hs, hsplit, ← hraw, List.drop_left]
    have hpieces := ih (by omega) hdrop
    have hslice : (text.drop cursor).take (cursor + front.length - cursor) = front := by
      rw [hs, Nat.add_sub_cancel_left, List.take_left]
    have hbegin : (classify (cursor + offset + front.length) name).start - offset =
        cursor + front.length := by
      rw [classify_start]
      omega
    have hfrontNodes : (if cursor + front.length > cursor then [Node.text front []] else []) =
        textNodes (N := N) front := by
      cases front with
      | nil => exact if_neg (Nat.lt_irrefl cursor)
      | cons c front => exact if_pos (Nat.lt_add_of_pos_right (Nat.succ_pos _))
    rw [cutPieces_ref (by rw [classify_start]; omega), hlength, hbegin, hslice, hfrontNodes,
      List.append_assoc]
    exact .ref hfront hhere hraw hpieces

theorem cutPieces_nil {offset cursor : Nat} {text : JsString} {refs : List ParsedReference}
    (h : (cutPieces (N := N) offset text [] cursor refs).1 = []) :
    (cutPieces (N := N) offset text [] cursor refs).2 = cursor := by
  induction refs with
  | nil => rfl
  | cons ref refs ih =>
    by_cases hskip : ref.start < cursor + offset
    · have heq : cutPieces (N := N) offset text [] cursor (ref :: refs) =
          cutPieces offset text [] cursor refs := if_pos hskip
      rw [heq] at h ⊢
      exact ih h
    · rw [cutPieces_ref hskip] at h
      exact absurd h (List.append_ne_nil_of_right_ne_nil _ (List.cons_ne_nil _ _))

theorem cutPieces_previous {previousChar : JsString} (h : previousChar.length ≤ 1)
    (text : JsString) : cutPieces (N := N) previousChar.length text [] 0
        (parseReferences (previousChar ++ text)) =
      cutPieces previousChar.length text [] 0
        (scanReferences 0 previousChar.getLast? previousChar.length text) := by
  cases previousChar with
  | nil => rfl
  | cons c tail =>
    cases tail with
    | cons d tail => exact absurd h (by simp)
    | nil =>
      show cutPieces 1 text [] 0 (scanReferences 0 none 0 (c :: text)) =
        cutPieces 1 text [] 0 (scanReferences 0 (some c) 1 text)
      cases hmatch : matchHere none (c :: text) with
      | none => rw [scan_none hmatch]
      | some name =>
        obtain ⟨-, -, hname⟩ := matchHere_eq_some.mp hmatch
        have hlongest := dottedName_eq_some.mp hname
        have htake : unit '@' ∉ text.take name.length := by
          rw [← List.prefix_iff_eq_take.mp hlongest.begins]
          exact hlongest.dotted.at_not_mem
        have hskip : (classify 0 name).start < 0 + 1 := by
          rw [classify_start]
          exact Nat.zero_lt_one
        rw [scan_some hmatch, scan_skip htake]
        exact if_pos hskip

/-- A text is cut where the grammar has a reference behind the previous character. -/
theorem cut_split {previousChar text : JsString} (h : previousChar.length ≤ 1)
    (htext : text ≠ []) :
    Cut previousChar.getLast? text (splitOnReferences (N := N) text [] previousChar) := by
  have hfound := found_scan text previousChar.getLast? previousChar.length
  have hcut := cut_pieces (N := N) hfound (Nat.zero_add _).symm (List.drop_zero (l := text))
  rw [← cutPieces_previous h] at hcut
  rw [splitOnReferences]
  dsimp only
  by_cases hnone : (cutPieces (N := N) previousChar.length text [] 0
      (parseReferences (previousChar ++ text))).1.length = 0
  · have hnil := List.length_eq_zero_iff.mp hnone
    rw [if_pos hnone]
    rw [hnil, cutPieces_nil hnil, List.drop_zero, textNodes, if_neg htext] at hcut
    exact hcut
  · rw [if_neg hnone]
    split
    · next hlt =>
      rw [textNodes, if_neg (mt List.drop_eq_nil_iff.mp (Nat.not_le_of_lt hlt))] at hcut
      exact hcut
    · next hge =>
      rw [textNodes, if_pos (List.drop_eq_nil_iff.mpr (Nat.not_lt.mp hge)),
        List.append_nil] at hcut
      exact hcut

theorem split_nil {previousChar : JsString} (h : previousChar.length ≤ 1) :
    splitOnReferences (N := N) [] [] previousChar = [.text [] []] := by
  rw [splitOnReferences, cutPieces_previous h]
  rfl

/-! ## The pieces of a text -/

theorem visibleTexts_append (nodes nodes' : List (Node N)) :
    visibleTexts (nodes ++ nodes') = visibleTexts nodes ++ visibleTexts nodes' := by
  induction nodes with
  | nil => rfl
  | cons node nodes ih =>
    rw [List.cons_append, visibleTexts, visibleTexts, ih, List.append_assoc]

theorem outlines_append (nodes nodes' : List (Node N)) :
    outlines (nodes ++ nodes') = outlines nodes ++ outlines nodes' := by
  induction nodes with
  | nil => rfl
  | cons node nodes ih => rw [List.cons_append, outlines, outlines, ih, List.append_assoc]

theorem outlines_textNodes (s : JsString) :
    outlines (textNodes (N := N) s) = s.map .unit := by
  cases s with
  | nil => rfl
  | cons c s => exact List.append_nil _

theorem visibleTexts_textNodes (s : JsString) : visibleTexts (textNodes (N := N) s) = s := by
  cases s with
  | nil => rfl
  | cons c s => exact List.append_nil _

theorem Cut.outlines_eq {before : Option CodeUnit} {s : JsString} {pieces : List (Node N)}
    (h : Cut before s pieces) : outlines pieces = s.map .unit := by
  induction h with
  | rest h => exact outlines_textNodes _
  | @ref before start front r rest name pieces hfront hhere hraw h ih =>
    rw [outlines_append, outlines_textNodes, outlines, ih, List.map_append]
    show _ ++ ((classify start name).raw.map Outline.unit ++ _) = _
    rw [hraw, ← List.map_append]
    rfl

theorem Cut.visible_eq {before : Option CodeUnit} {s : JsString} {pieces : List (Node N)}
    (h : Cut before s pieces) : visibleTexts pieces = s := by
  induction h with
  | rest h => exact visibleTexts_textNodes _
  | @ref before start front r rest name pieces hfront hhere hraw h ih =>
    rw [visibleTexts_append, visibleTexts_textNodes, visibleTexts, ih]
    show _ ++ ((classify start name).raw ++ _) = _
    rw [hraw]
    rfl

/-! ### The chips of the pieces -/

theorem headOf_eq_takeWhile (name : JsString) :
    headOf name = name.takeWhile (· != unit '.') := by
  induction name with
  | nil => rfl
  | cons c s ih =>
    rw [headOf, List.splitOn_cons_eq_if_modifyHead, List.takeWhile_cons]
    by_cases hc : (c == unit '.') = true
    · rw [if_pos hc, bne, hc]
      rfl
    · rw [if_neg hc, bne, Bool.not_eq_true] at *
      rw [hc, ← ih, headOf]
      cases hsplit : s.splitOn (unit '.') with
      | nil => exact absurd hsplit (List.splitOn_ne_nil _ _)
      | cons head tail => rfl

theorem headOf_headOf (name : JsString) : headOf (headOf name) = headOf name := by
  rw [headOf_eq_takeWhile, headOf_eq_takeWhile, List.takeWhile_idem]

theorem nameTail_takeWhile {t : JsString} (h : NameTail t) :
    NameTail (t.takeWhile (· != unit '.')) := by
  induction h with
  | nil => exact .nil
  | @cons c t hc h ih =>
    have hne : (c != unit '.') = true := by
      rw [bne_iff_ne]
      rintro rfl
      rw [isNameUnit_dot] at hc
      cases hc
    rw [List.takeWhile_cons, hne]
    exact .cons hc ih
  | dot hc h ih => exact .nil

theorem isDottedName_headOf {name : JsString} (h : IsDottedName name) :
    IsDottedName (headOf name) := by
  cases name with
  | nil => exact h
  | cons c t =>
    have hne : (c != unit '.') = true := by
      rw [bne_iff_ne]
      rintro rfl
      exact absurd h.1 (by decide)
    rw [headOf_eq_takeWhile, List.takeWhile_cons, hne]
    exact ⟨h.1, nameTail_takeWhile h.2⟩

theorem classify_same (start start' : Nat) {name name' : JsString}
    (h : headOf name = headOf name') :
    kindName (classify start name).kind = kindName (classify start' name').kind ∧
      (classify start name).kind.truncates = (classify start' name').kind.truncates := by
  rw [headOf, headOf] at h
  rw [classify, classify, h]
  split_ifs
  all_goals exact ⟨rfl, rfl⟩

theorem parseReferences_name {name : JsString} (h : IsDottedName name) :
    parseReferences (unit '@' :: name) = [classify 0 name] := by
  have hmatch : matchHere none (unit '@' :: name) = some name :=
    dottedName_eq_some.mpr ⟨h, List.prefix_rfl, fun _ _ hbegins => hbegins⟩
  have htake : unit '@' ∉ name.take name.length := by
    rw [List.take_length]
    exact h.at_not_mem
  have hnone : scanReferences 0 (some (unit '@')) (0 + 1) (name ++ []) = [] :=
    scan_pass h.at_not_mem [] _ _
  rw [List.append_nil] at hnone
  rw [parseReferences, scan_some hmatch, scan_skip htake, hnone]

theorem parse_raw (start : Nat) {name : JsString} (h : IsDottedName name) :
    ∃ ref, parseReferences (classify start name).raw = [ref] ∧
      ref.raw = (classify start name).raw ∧
      kindName ref.kind = kindName (classify start name).kind := by
  cases htruncates : (classify start name).kind.truncates with
  | true =>
    obtain ⟨hkind, hsame⟩ := classify_same 0 start (headOf_headOf name)
    have hraw : (classify start name).raw = unit '@' :: headOf name := by
      rw [classify_raw, htruncates]
      rfl
    rw [hraw]
    refine ⟨_, parseReferences_name (isDottedName_headOf h), ?_, hkind⟩
    rw [classify_raw, hsame, htruncates, headOf_headOf]
    rfl
  | false =>
    obtain ⟨hkind, hsame⟩ := classify_same 0 start (rfl : headOf name = headOf name)
    have hraw : (classify start name).raw = unit '@' :: name := by
      rw [classify_raw, htruncates]
      rfl
    rw [hraw]
    refine ⟨_, parseReferences_name h, ?_, hkind⟩
    rw [classify_raw, hsame, htruncates]
    rfl

theorem runLast_append (before : Option CodeUnit) (s t : JsString) :
    runLast before (s ++ t) = runLast (runLast before s) t := by
  rw [runLast, runLast, runLast, List.getLast?_append, Option.or_assoc]

theorem runLast_of_ne_nil {s : JsString} (h : s ≠ []) (before : Option CodeUnit) :
    runLast before s = s.getLast? := by
  rw [runLast, List.getLast?_eq_some_getLast h]
  rfl

theorem chipsIn_textNodes (before : Option CodeUnit) (s : JsString) (nodes : List (Node N)) :
    chipsIn before (textNodes s ++ nodes) = chipsIn (runLast before s) nodes := by
  cases s with
  | nil => rfl
  | cons c s => rfl

theorem chipsIn_chip (before : Option CodeUnit) {start : Nat} {name r : JsString}
    (hraw : (classify start name).raw = unit '@' :: r) (nodes : List (Node N)) :
    chipsIn before (chipNode (classify start name) :: nodes) =
      ⟨before, (classify start name).raw, some (kindName (classify start name).kind)⟩ ::
        chipsIn (runLast (some (unit '@')) r) nodes := by
  rw [← runLast_cons before, ← hraw]
  rfl

theorem Cut.chips_append {before : Option CodeUnit} {s : JsString} {pieces : List (Node N)}
    (h : Cut before s pieces) (real : Option CodeUnit) (nodes : List (Node N)) :
    chipsIn real (pieces ++ nodes) = chipsIn real pieces ++ chipsIn (runLast real s) nodes := by
  induction h generalizing real with
  | @rest before s h =>
    have hnone := chipsIn_textNodes (N := N) real s []
    rw [List.append_nil] at hnone
    rw [chipsIn_textNodes, hnone]
    rfl
  | @ref before start front r rest name pieces hfront hhere hraw h ih =>
    rw [List.append_assoc, List.cons_append, chipsIn_textNodes, chipsIn_chip _ hraw, ih,
      chipsIn_textNodes, chipsIn_chip _ hraw, runLast_append, runLast_cons, runLast_append]
    rfl

/-- A reference found is one, where it follows what it was found behind. -/
theorem proper_of_match {before : Option CodeUnit} {start : Nat} {s name : JsString}
    (h : matchHere before (unit '@' :: s) = some name) :
    Chip.Proper
      ⟨before, (classify start name).raw, some (kindName (classify start name).kind)⟩ := by
  obtain ⟨-, hfree, hname⟩ := matchHere_eq_some.mp h
  obtain ⟨ref, hparse, hraw, hkind⟩ := parse_raw start (dottedName_eq_some.mp hname).dotted
  exact ⟨hfree, ref, hparse, hraw, congrArg some hkind.symm⟩

theorem Cut.proper {before : Option CodeUnit} {s : JsString} {pieces : List (Node N)}
    (h : Cut before s pieces) : ∀ chip ∈ chipsIn before pieces, chip.Proper := by
  induction h with
  | @rest before s h =>
    have hnone := chipsIn_textNodes (N := N) before s []
    rw [List.append_nil] at hnone
    rw [hnone]
    exact fun _ hchip => absurd hchip List.not_mem_nil
  | @ref before start front r rest name pieces hfront hhere hraw h ih =>
    rw [chipsIn_textNodes, chipsIn_chip _ hraw]
    exact List.forall_mem_cons.mpr ⟨proper_of_match hhere, ih⟩

theorem matchHere_append {before : Option CodeUnit} {front : JsString}
    (h : NoReference before front) (hfront : front ≠ []) (s : JsString) :
    matchHere before (front ++ unit '@' :: s) = none := by
  cases front with
  | nil => exact absurd rfl hfront
  | cons c front =>
    cases hmatch : matchHere before (c :: front ++ unit '@' :: s) with
    | none => rfl
    | some name =>
      obtain ⟨rfl, hfree, hname⟩ := matchHere_eq_some.mp hmatch
      have hletter : (dottedName (front ++ unit '@' :: s)).isSome = true :=
        Option.isSome_iff_exists.mpr ⟨name, hname⟩
      rw [dottedName_isSome] at hletter
      have hsome : (dottedName front).isSome = true := by
        rw [dottedName_isSome]
        cases front with
        | nil =>
          have hat : isLetter (unit '@') = true := hletter
          exact absurd hat (by decide)
        | cons d front => exact hletter
      obtain ⟨name', hname'⟩ := Option.isSome_iff_exists.mp hsome
      have hscan := h 0
      rw [scan_some (matchHere_eq_some.mpr ⟨rfl, hfree, hname'⟩)] at hscan
      exact absurd hscan (List.cons_ne_nil _ _)

/-- Cut without a character in front, the pieces are proper unless one begins the text. -/
theorem Cut.proper_iff {s : JsString} {pieces : List (Node N)} (h : Cut none s pieces)
    (real : Option CodeUnit) : (∀ chip ∈ chipsIn real pieces, chip.Proper) ↔
      real.any isBlocking = false ∨ matchHere none s = none := by
  cases h with
  | rest h =>
    have hnone := chipsIn_textNodes (N := N) real s []
    rw [List.append_nil] at hnone
    rw [hnone]
    refine iff_of_true (fun _ hchip => absurd hchip List.not_mem_nil) (.inr ?_)
    cases s with
    | nil => rfl
    | cons c s =>
      cases hmatch : matchHere none (c :: s) with
      | none => rfl
      | some name =>
        have hscan := h 0
        rw [scan_some hmatch] at hscan
        exact absurd hscan (List.cons_ne_nil _ _)
  | @ref _ start front r rest name pieces hfront hhere hraw h =>
    rw [chipsIn_textNodes, chipsIn_chip _ hraw, List.forall_mem_cons, and_iff_left h.proper]
    by_cases hempty : front = []
    · subst hempty
      have hmatch : matchHere none (unit '@' :: (r ++ rest)) = some name := hhere
      rw [List.nil_append, hmatch, or_iff_left (Option.some_ne_none _)]
      refine ⟨fun hproper => hproper.free, fun hfree => ?_⟩
      obtain ⟨-, -, hname⟩ := matchHere_eq_some.mp hmatch
      exact proper_of_match (matchHere_eq_some.mpr ⟨rfl, hfree, hname⟩)
    · rw [matchHere_append hfront hempty]
      rw [runLast_of_ne_nil hempty] at hhere ⊢
      exact iff_of_true (proper_of_match hhere) (.inr rfl)

/-! ## Once is enough -/

theorem toList_length_le (before : Option CodeUnit) : before.toList.length ≤ 1 := by
  cases before with
  | none => exact Nat.zero_le 1
  | some c => exact Nat.le_refl 1

theorem getLast?_toList (before : Option CodeUnit) : before.toList.getLast? = before := by
  cases before with
  | none => rfl
  | some c => rfl

theorem split_none {before : Option CodeUnit} {s : JsString} (h : NoReference before s) :
    splitOnReferences (N := N) s [] before.toList = [.text s []] := by
  rw [splitOnReferences, cutPieces_previous (toList_length_le before), getLast?_toList, h]
  rfl

theorem lastChar_eq {s : JsString} (h : s ≠ []) (before : Option CodeUnit) :
    lastChar s = (runLast before s).toList := by
  rw [lastChar, runLast_of_ne_nil h]

theorem Cut.hydrate {before : Option CodeUnit} {s : JsString} {pieces : List (Node N)}
    (h : Cut before s pieces) (children : List (Node N)) :
    hydrateChildren before.toList (pieces ++ children) =
      pieces ++ hydrateChildren (runLast before s).toList children := by
  have htext : ∀ {before : Option CodeUnit} {s : JsString} (children : List (Node N)),
      NoReference before s → hydrateChildren before.toList (textNodes s ++ children) =
        textNodes s ++ hydrateChildren (runLast before s).toList children := by
    intro before s children hnone
    cases s with
    | nil => rfl
    | cons c s =>
      show splitOnReferences (c :: s) [] before.toList ++ hydrateChildren (lastChar (c :: s)) _ = _
      rw [split_none hnone, lastChar_eq (List.cons_ne_nil c s) before]
      rfl
  induction h with
  | rest h => exact htext children h
  | @ref before start front r rest name pieces hfront hhere hraw h ih =>
    have hlast : lastChar (classify start name).raw = (runLast (some (unit '@')) r).toList := by
      rw [hraw, lastChar_eq (List.cons_ne_nil _ _) none, runLast_cons]
    rw [List.append_assoc, htext _ hfront, List.cons_append]
    show textNodes front ++ (chipNode (classify start name) ::
      hydrateChildren (lastChar (classify start name).raw) (pieces ++ children)) = _
    rw [hlast, ih, runLast_append, runLast_cons, runLast_append, List.append_assoc]
    rfl

/-- What a text node becomes, empty texts and marked ones among them. -/
inductive Split (before : Option CodeUnit) : JsString → List (Value N) → List (Node N) → Prop
  | marked {text : JsString} {marks : List (Value N)} (h : marks.length > 0) :
      Split before text marks [.text text marks]
  | empty : Split before [] [] [.text [] []]
  | cut {text : JsString} {pieces : List (Node N)} (htext : text ≠ [])
      (h : Cut before text pieces) : Split before text [] pieces

theorem split_spec (before : Option CodeUnit) (text : JsString) (marks : List (Value N)) :
    Split before text marks (if marks.length > 0 then [.text text marks]
      else splitOnReferences text marks before.toList) := by
  by_cases hmarks : marks.length > 0
  · rw [if_pos hmarks]
    exact .marked hmarks
  · rw [if_neg hmarks]
    have hnil : marks = [] := List.length_eq_zero_iff.mp (Nat.eq_zero_of_not_pos hmarks)
    subst hnil
    by_cases htext : text = []
    · subst htext
      rw [split_nil (toList_length_le before)]
      exact .empty
    · have hcut := cut_split (N := N) (toList_length_le before) htext
      rw [getLast?_toList] at hcut
      exact .cut htext hcut

theorem hydrateChildren_text (before : Option CodeUnit) (text : JsString) (marks : List (Value N))
    (children : List (Node N)) : ∃ pieces, Split before text marks pieces ∧
      hydrateChildren before.toList (.text text marks :: children) =
        pieces ++ hydrateChildren text.getLast?.toList children :=
  ⟨_, split_spec before text marks, rfl⟩

section Split

variable {before : Option CodeUnit} {text : JsString} {marks : List (Value N)}
  {pieces : List (Node N)}

theorem Split.visible_eq (h : Split before text marks pieces) : visibleTexts pieces = text := by
  cases h with
  | marked h => exact List.append_nil text
  | empty => rfl
  | cut htext h => exact h.visible_eq

theorem Split.outlines_eq (h : Split before text marks pieces) :
    outlines pieces = outline (.text text marks) := by
  cases h with
  | marked h => exact List.append_nil _
  | empty => rfl
  | cut htext h => exact h.outlines_eq

theorem Split.hydrate (h : Split before text marks pieces) (children : List (Node N)) :
    hydrateChildren before.toList (pieces ++ children) =
      pieces ++ hydrateChildren text.getLast?.toList children := by
  cases h with
  | marked h =>
    show (if marks.length > 0 then _ else _) ++ _ = _
    rw [if_pos h]
    rfl
  | empty =>
    show splitOnReferences [] [] before.toList ++ _ = _
    rw [split_nil (toList_length_le before)]
    rfl
  | cut htext h => rw [h.hydrate, runLast_of_ne_nil htext]

theorem Split.chips_append (h : Split before text marks pieces) (real : Option CodeUnit)
    (nodes : List (Node N)) :
    chipsIn real (pieces ++ nodes) = chipsIn real pieces ++ chipsIn (runLast real text) nodes := by
  cases h with
  | marked h => rfl
  | empty => rfl
  | cut htext h => exact h.chips_append real nodes

end Split

theorem hydrateNode_branch (type : NodeType) (attrs : List (JsString × Value N))
    (content : List (Node N)) : hydrateNode (.branch type attrs content) = .branch type attrs
      (if type = .codeBlock then content else hydrateChildren [] content) := by
  rw [hydrateNode]
  split
  · rfl
  · rfl

mutual

theorem visibleText_hydrate (node : Node N) :
    visibleText (hydrateNode node) = visibleText node := by
  cases node with
  | text text marks => rfl
  | reference attrs => rfl
  | leaf type attrs => rfl
  | branch type attrs content =>
    rw [hydrateNode_branch, visibleText, visibleText]
    split
    · rfl
    · split
      · rfl
      · exact visibleTexts_hydrate none content

theorem visibleTexts_hydrate (before : Option CodeUnit) (children : List (Node N)) :
    visibleTexts (hydrateChildren before.toList children) = visibleTexts children := by
  cases children with
  | nil => rfl
  | cons child children =>
    cases child with
    | text text marks =>
      obtain ⟨pieces, hsplit, heq⟩ := hydrateChildren_text before text marks children
      rw [heq, visibleTexts_append, hsplit.visible_eq, visibleTexts_hydrate text.getLast? children]
      rfl
    | reference attrs =>
      exact congrArg (rawOf attrs ++ ·) (visibleTexts_hydrate (rawOf attrs).getLast? children)
    | leaf type attrs => exact congrArg (rawOf attrs ++ ·) (visibleTexts_hydrate none children)
    | branch type attrs content =>
      show visibleText (hydrateNode _) ++ visibleTexts (hydrateChildren none.toList children) = _
      rw [visibleText_hydrate (.branch type attrs content), visibleTexts_hydrate none children]
      rfl

end

mutual

/-- The tree keeps its characters, its code and its marked texts. -/
theorem outline_hydrate (node : Node N) : outline (hydrateNode node) = outline node := by
  cases node with
  | text text marks => rfl
  | reference attrs => rfl
  | leaf type attrs => rfl
  | branch type attrs content =>
    rw [hydrateNode_branch, outline, outline]
    by_cases hcode : type = .codeBlock
    · rw [if_pos hcode, if_pos hcode, if_pos hcode]
    · rw [if_neg hcode, if_neg hcode, if_neg hcode]
      exact congrArg (fun content => [Outline.node type attrs content])
        (outlines_hydrate none content)

theorem outlines_hydrate (before : Option CodeUnit) (children : List (Node N)) :
    outlines (hydrateChildren before.toList children) = outlines children := by
  cases children with
  | nil => rfl
  | cons child children =>
    cases child with
    | text text marks =>
      obtain ⟨pieces, hsplit, heq⟩ := hydrateChildren_text before text marks children
      rw [heq, outlines_append, hsplit.outlines_eq, outlines_hydrate text.getLast? children]
      rfl
    | reference attrs =>
      exact congrArg ((rawOf attrs).map .unit ++ ·)
        (outlines_hydrate (rawOf attrs).getLast? children)
    | leaf type attrs => exact congrArg (List.cons _) (outlines_hydrate none children)
    | branch type attrs content =>
      show outline (hydrateNode _) ++ outlines (hydrateChildren none.toList children) = _
      rw [outline_hydrate (.branch type attrs content), outlines_hydrate none children]
      rfl

end

mutual

theorem hydrate_again (node : Node N) :
    hydrateNode (hydrateNode node) = hydrateNode node := by
  cases node with
  | text text marks => rfl
  | reference attrs => rfl
  | leaf type attrs => rfl
  | branch type attrs content =>
    rw [hydrateNode_branch, hydrateNode_branch]
    by_cases hcode : type = .codeBlock
    · rw [if_pos hcode, if_pos hcode]
    · rw [if_neg hcode, if_neg hcode]
      exact congrArg _ (hydrateChildren_again none content)

theorem hydrateChildren_again (before : Option CodeUnit) (children : List (Node N)) :
    hydrateChildren before.toList (hydrateChildren before.toList children) =
      hydrateChildren before.toList children := by
  cases children with
  | nil => rfl
  | cons child children =>
    cases child with
    | text text marks =>
      obtain ⟨pieces, hsplit, heq⟩ := hydrateChildren_text before text marks children
      rw [heq, hsplit.hydrate, hydrateChildren_again text.getLast? children]
    | reference attrs =>
      exact congrArg (List.cons _) (hydrateChildren_again (rawOf attrs).getLast? children)
    | leaf type attrs => exact congrArg (List.cons _) (hydrateChildren_again none children)
    | branch type attrs content =>
      have hchild := hydrate_again (.branch type attrs content)
      have hrest := hydrateChildren_again none children
      rw [hydrateNode_branch] at hchild
      show hydrateChildren before.toList (hydrateNode (.branch type attrs content) ::
          hydrateChildren none.toList children) =
        hydrateNode _ :: hydrateChildren none.toList children
      rw [hydrateNode_branch]
      exact congrArg₂ List.cons hchild hrest

end

/-! ## The new chips -/

mutual

def fresh : Node N → List Chip
  | .text _ _ => []
  | .reference _ => []
  | .leaf _ _ => []
  | .branch type _ content => if type = .codeBlock then [] else freshIn none none content

/-- The chips cut out of texts; `previous` is what the cut looks back on, `real` the character
that stands there. -/
def freshIn (real previous : Option CodeUnit) : List (Node N) → List Chip
  | [] => []
  | .text text marks :: nodes =>
    chipsIn real (if marks.length > 0 then [.text text marks]
      else splitOnReferences text marks previous.toList) ++
      freshIn (runLast real text) text.getLast? nodes
  | .reference attrs :: nodes =>
    freshIn (runLast real (rawOf attrs)) (rawOf attrs).getLast? nodes
  | .leaf _ _ :: nodes => freshIn none none nodes
  | .branch type attrs content :: nodes =>
    fresh (.branch type attrs content) ++ freshIn none none nodes

end

mutual

theorem chips_hydrate (node : Node N) :
    (chips (hydrateNode node)).Perm (chips node ++ fresh node) := by
  cases node with
  | text text marks => exact .refl _
  | reference attrs => exact .refl _
  | leaf type attrs => exact .refl _
  | branch type attrs content =>
    rw [hydrateNode_branch, chips, chips, fresh]
    by_cases hcode : type = .codeBlock
    · rw [if_pos hcode, if_pos hcode, if_pos hcode]
      exact .refl _
    · rw [if_neg hcode, if_neg hcode, if_neg hcode, if_neg hcode]
      exact chipsIn_hydrate none none content

theorem chipsIn_hydrate (real previous : Option CodeUnit) (children : List (Node N)) :
    (chipsIn real (hydrateChildren previous.toList children)).Perm
      (chipsIn real children ++ freshIn real previous children) := by
  cases children with
  | nil => exact .refl _
  | cons child children =>
    cases child with
    | text text marks =>
      have hsplit := split_spec previous text marks
      have hrest := chipsIn_hydrate (runLast real text) text.getLast? children
      show (chipsIn real (_ ++ hydrateChildren text.getLast?.toList children)).Perm _
      rw [hsplit.chips_append]
      -- the pieces' chips stand in front of the old ones
      refine (hrest.append_left _).trans ?_
      rw [chipsIn, freshIn, ← List.append_assoc, ← List.append_assoc]
      exact List.perm_append_comm.append_right _
    | reference attrs =>
      exact (chipsIn_hydrate (runLast real (rawOf attrs)) (rawOf attrs).getLast? children).cons _
    | leaf type attrs => exact chipsIn_hydrate none none children
    | branch type attrs content =>
      have hchild := chips_hydrate (.branch type attrs content)
      have hrest := chipsIn_hydrate none none children
      rw [hydrateNode_branch] at hchild
      show (chipsIn real (hydrateNode _ :: hydrateChildren none.toList children)).Perm _
      rw [hydrateNode_branch]
      refine (hchild.append hrest).trans ?_
      rw [chipsIn, freshIn, List.append_assoc, List.append_assoc]
      refine List.Perm.append_left _ ?_
      rw [← List.append_assoc, ← List.append_assoc]
      exact List.perm_append_comm.append_right _

end

/-- An at-sign and a letter. -/
def BeginsReference (text : JsString) : Prop :=
  ∃ c rest, text = unit '@' :: c :: rest ∧ isLetter c = true

mutual

/-- No text that begins with a reference follows a text or a chip without characters while the
grammar forbids a reference behind the last character there is. -/
def Connected : Node N → Prop
  | .text _ _ => True
  | .reference _ => True
  | .leaf _ _ => True
  | .branch type _ content => type ≠ .codeBlock → ConnectedIn none [] content

/-- `before` is the last character of the run, `previous` the text of the sibling before. -/
def ConnectedIn (before : Option CodeUnit) (previous : JsString) : List (Node N) → Prop
  | [] => True
  | .text text marks :: nodes =>
    (marks = [] → BeginsReference text → previous = [] → before.any isBlocking = false) ∧
      ConnectedIn (runLast before text) text nodes
  | .reference attrs :: nodes => ConnectedIn (runLast before (rawOf attrs)) (rawOf attrs) nodes
  | .leaf _ _ :: nodes => ConnectedIn none [] nodes
  | .branch type attrs content :: nodes =>
    Connected (.branch type attrs content) ∧ ConnectedIn none [] nodes

end

theorem matchHere_isSome {s : JsString} :
    (matchHere none s).isSome = true ↔ BeginsReference s := by
  constructor
  · intro h
    obtain ⟨name, hname⟩ := Option.isSome_iff_exists.mp h
    cases s with
    | nil => cases hname
    | cons c s =>
      obtain ⟨rfl, -, hdotted⟩ := matchHere_eq_some.mp hname
      cases s with
      | nil => cases hdotted
      | cons d s =>
        have hletter := dottedName_isSome (d :: s)
        rw [hdotted] at hletter
        exact ⟨d, s, rfl, hletter.symm⟩
  · rintro ⟨c, rest, rfl, hletter⟩
    have hsome : (dottedName (c :: rest)).isSome = true := (dottedName_isSome _).trans hletter
    obtain ⟨name, hname⟩ := Option.isSome_iff_exists.mp hsome
    exact Option.isSome_iff_exists.mpr ⟨name, hname⟩

/-- The chips cut out of one text. -/
theorem Split.proper_iff {real : Option CodeUnit} {previous text : JsString}
    {marks : List (Value N)} {pieces : List (Node N)}
    (h : Split previous.getLast? text marks pieces)
    (hreal : previous = [] ∨ previous.getLast? = real) :
    (∀ chip ∈ chipsIn real pieces, chip.Proper) ↔
      (marks = [] → BeginsReference text → previous = [] → real.any isBlocking = false) := by
  cases h with
  | marked h =>
    refine iff_of_true (fun _ hchip => absurd hchip List.not_mem_nil) fun hmarks => ?_
    rw [hmarks] at h
    exact absurd h (Nat.lt_irrefl 0)
  | empty =>
    refine iff_of_true (fun _ hchip => absurd hchip List.not_mem_nil) fun _ hbegins => ?_
    obtain ⟨c, rest, heq, -⟩ := hbegins
    cases heq
  | cut htext h =>
    by_cases hempty : previous = []
    · subst hempty
      rw [h.proper_iff real, ← matchHere_isSome, Option.isSome_iff_ne_none, imp_iff_right rfl,
        imp_iff_right rfl]
      constructor
      · exact fun hor hne => hor.resolve_right hne
      · exact fun himp => or_iff_not_imp_right.mpr himp
    · -- the cut looked back on the character that stands there
      have hlast := hreal.resolve_left hempty
      rw [hlast] at h
      exact iff_of_true h.proper fun _ _ hnil => absurd hnil hempty

mutual

theorem fresh_proper (node : Node N) :
    (∀ chip ∈ fresh node, chip.Proper) ↔ Connected node := by
  cases node with
  | text text marks => exact iff_of_true (fun _ h => absurd h List.not_mem_nil) trivial
  | reference attrs => exact iff_of_true (fun _ h => absurd h List.not_mem_nil) trivial
  | leaf type attrs => exact iff_of_true (fun _ h => absurd h List.not_mem_nil) trivial
  | branch type attrs content =>
    rw [fresh, Connected]
    by_cases hcode : type = .codeBlock
    · rw [if_pos hcode]
      exact iff_of_true (fun _ h => absurd h List.not_mem_nil) fun hne => absurd hcode hne
    · rw [if_neg hcode, imp_iff_right hcode]
      exact freshIn_proper none [] content (.inl rfl)

theorem freshIn_proper (real : Option CodeUnit) (previous : JsString) (nodes : List (Node N))
    (hreal : previous = [] ∨ previous.getLast? = real) :
    (∀ chip ∈ freshIn real previous.getLast? nodes, chip.Proper) ↔
      ConnectedIn real previous nodes := by
  have hrun : ∀ text : JsString, text = [] ∨ text.getLast? = runLast real text := by
    intro text
    by_cases htext : text = []
    · exact .inl htext
    · exact .inr (runLast_of_ne_nil htext real).symm
  cases nodes with
  | nil => exact iff_of_true (fun _ h => absurd h List.not_mem_nil) trivial
  | cons node nodes =>
    cases node with
    | text text marks =>
      rw [freshIn, ConnectedIn, List.forall_mem_append,
        (split_spec previous.getLast? text marks).proper_iff hreal,
        freshIn_proper (runLast real text) text nodes (hrun text)]
    | reference attrs =>
      exact freshIn_proper (runLast real (rawOf attrs)) (rawOf attrs) nodes (hrun _)
    | leaf type attrs => exact freshIn_proper none [] nodes (.inl rfl)
    | branch type attrs content =>
      rw [freshIn, ConnectedIn, List.forall_mem_append, fresh_proper (.branch type attrs content)]
      exact and_congr_right fun _ => freshIn_proper none [] nodes (.inl rfl)

end

/-- A tree is hydrated as the editor relies on if and only if no sibling without characters hides
the one in front of a reference. -/
theorem hydration_iff (doc : Node N) : Keeps doc ↔ Connected doc := by
  rw [← fresh_proper]
  constructor
  · rintro ⟨-, -, ⟨chips', hperm, hproper⟩, -⟩ chip hchip
    have hsame : (fresh doc).Perm chips' :=
      (List.perm_append_left_iff _).mp ((chips_hydrate doc).symm.trans hperm)
    exact hproper chip (hsame.subset hchip)
  · intro hproper
    exact ⟨visibleText_hydrate doc, outline_hydrate doc, ⟨fresh doc, chips_hydrate doc, hproper⟩,
      hydrate_again doc⟩

/-! ## An empty text between -/

/-- A paragraph whose letter and whose at-sign an empty text keeps apart. -/
def partedParagraph : Node Int :=
  .branch (.other (ascii "paragraph")) []
    [.text (ascii "a") [], .text [] [], .text (ascii "@x") []]

/-- The at-sign behind the letter becomes a chip. -/
theorem parted_chip : ¬ Keeps partedParagraph := by
  rintro ⟨-, -, ⟨chips', hperm, hproper⟩, -⟩
  have hchips : chips (hydrateReferences partedParagraph) =
      [⟨some (unit 'a'), ascii "@x", some (ascii "connection")⟩] := by
    decide +kernel
  have hold : chips partedParagraph = [] := rfl
  rw [hchips, hold, List.nil_append] at hperm
  have hfree := (hproper _ (hperm.subset List.mem_cons_self)).free
  exact absurd hfree (by decide)

end InvisibleString.Web
