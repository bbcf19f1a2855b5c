import InvisibleString.Compiler.Codegen

/- # `Compiler.Manifest` — the JSON files of the generated project

`JSON.stringify(value, null, 2)` puts line breaks and indentation between the tokens, and nothing
into them.

**Proved here.**

    an indented text is read back  (`parse_indented`)
    `package.json` is read as its manifest, whatever the names and the pins
                                                                     (`parse_emitPackageJson`)
-/

namespace InvisibleString.Compiler

open Json

variable {N : Type} (F : NumberFormat N)

/-! ## White space between tokens -/

theorem skipSpace_append {space : JsString} (h : space.all isSpace = true) (text : JsString) :
    skipSpace (space ++ text) = skipSpace text :=
  List.dropWhile_append_of_pos (List.all_eq_true.mp h)

theorem readValue_space {space : JsString} (h : space.all isSpace = true) (n : Nat)
    (text : JsString) : readValue F n (space ++ text) = readValue F n text := by
  cases n with
  | zero => rfl
  | succ n => rw [readValue, readValue, skipSpace_append h]

theorem readKey_space {space : JsString} (h : space.all isSpace = true) (n : Nat)
    (text : JsString) : readKey n (space ++ text) = readKey n text := by
  rw [readKey, readKey, skipSpace_append h]

theorem space_blank : (ascii " ").all isSpace = true := by decide

theorem space_deeper {indent : JsString} (h : indent.all isSpace = true) :
    (indent ++ ascii "  ").all isSpace = true := by
  rw [List.all_append, h]
  decide

theorem space_line {indent : JsString} (h : indent.all isSpace = true) :
    (ascii "\n" ++ indent).all isSpace = true := by
  rw [List.all_append, h]
  decide

/-! ## The lines of an array or an object -/

/-- The items behind the first one, with the closing bracket. -/
def itemLines (indent : JsString) : List (Value N) → JsString
  | [] => ascii "\n" ++ indent ++ ascii "]"
  | v :: vs =>
    ascii ",\n" ++ (indent ++ ascii "  ") ++ indented F (indent ++ ascii "  ") v ++
      itemLines indent vs

def memberLines (indent : JsString) : List (JsString × Value N) → JsString
  | [] => ascii "\n" ++ indent ++ ascii "\x7d"
  | (k, v) :: ms =>
    ascii ",\n" ++ (indent ++ ascii "  ") ++ quote k ++ ascii ": " ++
      indented F (indent ++ ascii "  ") v ++ memberLines indent ms

theorem indented_arr (indent : JsString) (v : Value N) (vs : List (Value N)) :
    indented F indent (.arr (v :: vs)) = ascii "[\n" ++ (indent ++ ascii "  ") ++
      indented F (indent ++ ascii "  ") v ++ itemLines F indent vs := by
  have hlines : ∀ (w : Value N) (ws : List (Value N)),
      join (ascii ",\n") (indentedItems F (indent ++ ascii "  ") (w :: ws)) ++
        (ascii "\n" ++ indent ++ ascii "]") =
      (indent ++ ascii "  ") ++ indented F (indent ++ ascii "  ") w ++ itemLines F indent ws := by
    intro w ws
    induction ws generalizing w with
    | nil => rfl
    | cons u ws ih =>
      have hjoin : join (ascii ",\n") (indentedItems F (indent ++ ascii "  ") (w :: u :: ws)) =
          (indent ++ ascii "  ") ++ indented F (indent ++ ascii "  ") w ++ ascii ",\n" ++
            join (ascii ",\n") (indentedItems F (indent ++ ascii "  ") (u :: ws)) := rfl
      rw [hjoin, List.append_assoc _ (join _ _), ih u, itemLines]
      simp only [List.append_assoc]
  rw [indented]
  have h := hlines v vs
  simp only [List.append_assoc] at h ⊢
  rw [h]

theorem indented_obj (indent k : JsString) (v : Value N) (ms : List (JsString × Value N)) :
    indented F indent (.obj ((k, v) :: ms)) = ascii "\x7b\n" ++ (indent ++ ascii "  ") ++
      quote k ++ ascii ": " ++ indented F (indent ++ ascii "  ") v ++ memberLines F indent ms := by
  have hlines : ∀ (l : JsString) (w : Value N) (ns : List (JsString × Value N)),
      join (ascii ",\n") (indentedMembers F (indent ++ ascii "  ") ((l, w) :: ns)) ++
        (ascii "\n" ++ indent ++ ascii "\x7d") =
      (indent ++ ascii "  ") ++ quote l ++ ascii ": " ++ indented F (indent ++ ascii "  ") w ++
        memberLines F indent ns := by
    intro l w ns
    induction ns generalizing l w with
    | nil => rfl
    | cons e ns ih =>
      obtain ⟨l', w'⟩ := e
      have hjoin : join (ascii ",\n")
          (indentedMembers F (indent ++ ascii "  ") ((l, w) :: (l', w') :: ns)) =
          (indent ++ ascii "  ") ++ quote l ++ ascii ": " ++
            indented F (indent ++ ascii "  ") w ++ ascii ",\n" ++
            join (ascii ",\n") (indentedMembers F (indent ++ ascii "  ") ((l', w') :: ns)) := rfl
      rw [hjoin, List.append_assoc _ (join _ _), ih l' w', memberLines]
      simp only [List.append_assoc]
  rw [indented]
  have h := hlines k v ms
  simp only [List.append_assoc] at h ⊢
  rw [h]

theorem delimited_itemLines (indent : JsString) (vs : List (Value N)) (rest : JsString) :
    Delimited (itemLines F indent vs ++ rest) := by
  cases vs with
  | nil => exact delimited_cons (c := unit '\n') (by decide)
  | cons v vs => exact delimited_cons (c := unit ',') (by decide)

theorem delimited_memberLines (indent : JsString) (ms : List (JsString × Value N))
    (rest : JsString) : Delimited (memberLines F indent ms ++ rest) := by
  cases ms with
  | nil => exact delimited_cons (c := unit '\n') (by decide)
  | cons m ms => exact delimited_cons (c := unit ',') (by decide)

/-- The first unit belongs to a token that does not close an array. -/
theorem indented_eq_cons (indent : JsString) (v : Value N) :
    ∃ c s, indented F indent v = c :: s ∧ isSpace c = false ∧ c ≠ unit ']' := by
  cases v with
  | arr vs =>
    cases vs with
    | nil => exact ⟨_, _, rfl, by decide, by decide⟩
    | cons v vs => exact ⟨unit '[', _, rfl, by decide, by decide⟩
  | obj ms =>
    cases ms with
    | nil => exact ⟨_, _, rfl, by decide, by decide⟩
    | cons m ms => exact ⟨unit '\x7b', _, rfl, by decide, by decide⟩
  | null => exact stringify_eq_cons F .null
  | bool b =>
    cases b with
    | false => exact stringify_eq_cons F (.bool false)
    | true => exact stringify_eq_cons F (.bool true)
  | num n => exact stringify_eq_cons F (.num n)
  | str s => exact stringify_eq_cons F (.str s)

/-! ## Round trip -/

mutual

theorem readValue_indented (v : Value N) (hv : v.KeysOnce) {indent : JsString}
    (hindent : indent.all isSpace = true) {rest : JsString} (hrest : Delimited rest) {n : Nat}
    (hn : 2 * (indented F indent v ++ rest).length < n) :
    readValue F n (indented F indent v ++ rest) = some (v, rest) := by
  have hdeep := space_deeper hindent
  have hdeeper := space_line hdeep
  cases v with
  | null => exact readValue_stringify F .null hv hrest hn
  | bool b =>
    cases b with
    | false => exact readValue_stringify F (.bool false) hv hrest hn
    | true => exact readValue_stringify F (.bool true) hv hrest hn
  | num k => exact readValue_stringify F (.num k) hv hrest hn
  | str s => exact readValue_stringify F (.str s) hv hrest hn
  | arr vs =>
    cases vs with
    | nil => exact readValue_stringify F (.arr []) hv hrest hn
    | cons v vs =>
      rw [Value.KeysOnce, KeysOnceItems] at hv
      have hs : indented F indent (.arr (v :: vs)) ++ rest = unit '[' ::
          ((ascii "\n" ++ (indent ++ ascii "  ")) ++
            (indented F (indent ++ ascii "  ") v ++ (itemLines F indent vs ++ rest))) := by
        have hopen : ascii "[\n" = unit '[' :: ascii "\n" := rfl
        rw [indented_arr, hopen]
        simp only [List.cons_append, List.append_assoc]
      rw [hs] at hn ⊢
      simp only [List.length_cons, List.length_append] at hn
      obtain ⟨n, rfl⟩ : ∃ k, n = k + 2 := ⟨n - 2, by omega⟩
      rw [readValue, skipSpace_cons (by decide)]
      simp only [if_true, if_neg (show unit '[' ≠ unit '"' by decide)]
      obtain ⟨c, s, hc, hspace, hclose⟩ := indented_eq_cons F (indent ++ ascii "  ") v
      have hhead : (skipSpace ((ascii "\n" ++ (indent ++ ascii "  ")) ++
          (indented F (indent ++ ascii "  ") v ++ (itemLines F indent vs ++ rest)))).head? ≠
          some (unit ']') := by
        rw [skipSpace_append hdeeper, hc, List.cons_append, skipSpace_cons hspace,
          List.head?_cons]
        exact fun h => hclose (Option.some.inj h)
      rw [Json.readArray, if_neg hhead, readValue_space F hdeeper,
        readValue_indented v hv.1 hdeep (delimited_itemLines F indent vs rest)
          (by simp only [List.length_append]; omega)]
      simp only [Option.bind_eq_bind, Option.bind_some]
      rw [readItems_itemLines vs hv.2 hindent (by simp only [List.length_append]; omega)]
      rfl
  | obj ms =>
    cases ms with
    | nil => exact readValue_stringify F (.obj []) hv hrest hn
    | cons m ms =>
      rcases m with ⟨k, v⟩
      rw [Value.KeysOnce, KeysOnceMembers] at hv
      have hs : indented F indent (.obj ((k, v) :: ms)) ++ rest = unit '\x7b' ::
          ((ascii "\n" ++ (indent ++ ascii "  ")) ++ (quote k ++ unit ':' :: (ascii " " ++
            (indented F (indent ++ ascii "  ") v ++ (memberLines F indent ms ++ rest))))) := by
        have hopen : ascii "\x7b\n" = unit '\x7b' :: ascii "\n" := rfl
        have hcolon : ascii ": " = unit ':' :: ascii " " := rfl
        rw [indented_obj, hopen, hcolon]
        simp only [List.cons_append, List.append_assoc]
      rw [hs] at hn ⊢
      simp only [List.length_cons, List.length_append] at hn
      obtain ⟨n, rfl⟩ : ∃ k, n = k + 2 := ⟨n - 2, by omega⟩
      rw [readValue, skipSpace_cons (by decide)]
      simp only [if_true, if_neg (show unit '\x7b' ≠ unit '"' by decide),
        if_neg (show unit '\x7b' ≠ unit '[' by decide)]
      have hhead : (skipSpace ((ascii "\n" ++ (indent ++ ascii "  ")) ++
          (quote k ++ unit ':' :: (ascii " " ++ (indented F (indent ++ ascii "  ") v ++
            (memberLines F indent ms ++ rest)))))).head? ≠ some (unit '\x7d') := by
        rw [skipSpace_append hdeeper, quote, List.cons_append, skipSpace_cons (by decide),
          List.head?_cons]
        decide
      rw [readObject, if_neg hhead, readKey_space hdeeper,
        readKey_quote (by simp only [List.length_cons, List.length_append]; omega)]
      simp only [Option.bind_eq_bind, Option.bind_some]
      rw [readValue_space F space_blank,
        readValue_indented v hv.2.1 hdeep (delimited_memberLines F indent ms rest)
          (by simp only [List.length_append]; omega)]
      simp only [Option.bind_some]
      exact readMembers_memberLines ms [(k, v)] hv.1 hv.2.2 hindent
        (by simp only [List.length_append]; omega)

theorem readItems_itemLines (vs : List (Value N)) (hvs : KeysOnceItems vs) {indent : JsString}
    (hindent : indent.all isSpace = true) {rest : JsString} {n : Nat}
    (hn : 2 * (itemLines F indent vs ++ rest).length < n) :
    readItems F n (itemLines F indent vs ++ rest) = some (vs, rest) := by
  obtain ⟨n, rfl⟩ : ∃ k, n = k + 1 := ⟨n - 1, by omega⟩
  have hdeep := space_deeper hindent
  have hdeeper := space_line hdeep
  cases vs with
  | nil =>
    have hclosing := space_line hindent
    have hs : itemLines F indent [] ++ rest = (ascii "\n" ++ indent) ++ unit ']' :: rest := by
      rw [itemLines, List.append_assoc]
      rfl
    rw [hs, readItems, skipSpace_append hclosing, skipSpace_cons (by decide)]
    rfl
  | cons v vs =>
    rw [KeysOnceItems] at hvs
    have hs : itemLines F indent (v :: vs) ++ rest = unit ',' ::
        ((ascii "\n" ++ (indent ++ ascii "  ")) ++
          (indented F (indent ++ ascii "  ") v ++ (itemLines F indent vs ++ rest))) := by
      have hcomma : ascii ",\n" = unit ',' :: ascii "\n" := rfl
      rw [itemLines, hcomma]
      simp only [List.cons_append, List.append_assoc]
    rw [hs] at hn ⊢
    simp only [List.length_cons, List.length_append] at hn
    rw [readItems, skipSpace_cons (by decide)]
    simp only [if_true, if_neg (show unit ',' ≠ unit ']' by decide)]
    rw [readValue_space F hdeeper, readValue_indented v hvs.1 hdeep
      (delimited_itemLines F indent vs rest) (by simp only [List.length_append]; omega)]
    simp only [Option.bind_eq_bind, Option.bind_some]
    rw [readItems_itemLines vs hvs.2 hindent (by simp only [List.length_append]; omega)]
    rfl

theorem readMembers_memberLines (ms members : List (JsString × Value N))
    (hkeys : OrderedMap.UniqueKeys (members ++ ms)) (hms : KeysOnceMembers ms) {indent : JsString}
    (hindent : indent.all isSpace = true) {rest : JsString} {n : Nat}
    (hn : 2 * (memberLines F indent ms ++ rest).length < n) :
    readMembers F n members (memberLines F indent ms ++ rest) =
      some (.obj (members ++ ms), rest) := by
  obtain ⟨n, rfl⟩ : ∃ k, n = k + 1 := ⟨n - 1, by omega⟩
  have hdeep := space_deeper hindent
  have hdeeper := space_line hdeep
  cases ms with
  | nil =>
    have hclosing := space_line hindent
    have hs : memberLines F indent [] ++ rest =
        (ascii "\n" ++ indent) ++ unit '\x7d' :: rest := by
      rw [memberLines, List.append_assoc]
      rfl
    rw [hs, readMembers, skipSpace_append hclosing, skipSpace_cons (by decide), List.append_nil]
    rfl
  | cons m ms =>
    rcases m with ⟨k, v⟩
    rw [KeysOnceMembers] at hms
    have hs : memberLines F indent ((k, v) :: ms) ++ rest = unit ',' ::
        ((ascii "\n" ++ (indent ++ ascii "  ")) ++ (quote k ++ unit ':' :: (ascii " " ++
          (indented F (indent ++ ascii "  ") v ++ (memberLines F indent ms ++ rest))))) := by
      have hcomma : ascii ",\n" = unit ',' :: ascii "\n" := rfl
      have hcolon : ascii ": " = unit ':' :: ascii " " := rfl
      rw [memberLines, hcomma, hcolon]
      simp only [List.cons_append, List.append_assoc]
    rw [hs] at hn ⊢
    simp only [List.length_cons, List.length_append] at hn
    rw [readMembers, skipSpace_cons (by decide)]
    simp only [if_true, if_neg (show unit ',' ≠ unit '\x7d' by decide)]
    rw [readKey_space hdeeper, readKey_quote
      (by simp only [List.length_cons, List.length_append]; omega)]
    simp only [Option.bind_eq_bind, Option.bind_some]
    rw [readValue_space F space_blank, readValue_indented v hms.1 hdeep
      (delimited_memberLines F indent ms rest) (by simp only [List.length_append]; omega)]
    simp only [Option.bind_some]
    have hset : OrderedMap.set k v members = members ++ [(k, v)] :=
      OrderedMap.set_of_not_mem (OrderedMap.UniqueKeys.not_mem_of_append hkeys)
    rw [hset, readMembers_memberLines ms (members ++ [(k, v)]) (by simpa using hkeys) hms.2 hindent
      (by simp only [List.length_append]; omega)]
    simp

end

/-- `JSON.parse` takes back what `JSON.stringify(value, null, 2)` and a line break wrote. -/
theorem parse_indented (v : Value N) (hv : v.KeysOnce) :
    parse F (indented F [] v ++ ascii "\n") = some v := by
  have hrest : Delimited (ascii "\n") := delimited_cons (c := unit '\n') (by decide)
  have hindent : ([] : JsString).all isSpace = true := rfl
  have h := readValue_indented F v hv hindent hrest (Nat.lt_succ_self _)
  rw [parse, h]
  rfl

/-! ## The manifest -/

def manifest (deps : CompileDeps N) : Value N :=
  .obj
    [(ascii "name", .str (ascii "agent--" ++ deps.workspaceSlug ++ ascii "--" ++ deps.agentSlug)),
      (ascii "private", .bool true),
      (ascii "type", .str (ascii "module")),
      (ascii "engines", .obj [(ascii "node", .str (ascii "24.x"))]),
      (ascii "scripts", .obj [(ascii "build", .str (ascii "eve build")),
        (ascii "start", .str (ascii "eve start")),
        (ascii "typecheck", .str (ascii "tsc --noEmit"))]),
      (ascii "dependencies", sortedRecord (dependencies deps)),
      (ascii "devDependencies", sortedRecord [(ascii "@types/node", deps.versions.pin .typesNode),
        (ascii "typescript", deps.versions.pin .typescript)])]

theorem keysOnce_sortedRecord {entries : List (JsString × JsString)}
    (h : OrderedMap.UniqueKeys entries) : (sortedRecord entries : Value N).KeysOnce := by
  rw [sortedRecord, Value.KeysOnce]
  refine ⟨?_, keysOnceMembers_of_forall fun k v hmem => ?_⟩
  · unfold OrderedMap.UniqueKeys
    rw [List.map_map]
    exact ((sortBy_perm Prod.fst entries).map Prod.fst).nodup_iff.mpr h
  · obtain ⟨e, -, heq⟩ := List.mem_map.mp hmem
    cases heq
    trivial

theorem dependencies_once (deps : CompileDeps N) : OrderedMap.UniqueKeys (dependencies deps) := by
  rw [dependencies]
  split
  · exact (by decide : [ascii "@workflow/world-postgres", ascii "ai", ascii "eve", ascii "zod",
      ascii "@openrouter/ai-sdk-provider"].Nodup)
  · exact (by decide : [ascii "@workflow/world-postgres", ascii "ai", ascii "eve", ascii "zod",
      ascii "@ai-sdk/anthropic"].Nodup)

theorem manifest_keysOnce (deps : CompileDeps N) : (manifest deps).KeysOnce := by
  have hmembers : [ascii "name", ascii "private", ascii "type", ascii "engines", ascii "scripts",
    ascii "dependencies", ascii "devDependencies"].Nodup := by decide
  have hscripts : [ascii "build", ascii "start", ascii "typecheck"].Nodup := by decide
  have hpins : [ascii "@types/node", ascii "typescript"].Nodup := by decide
  exact ⟨hmembers, trivial, trivial, trivial, ⟨List.nodup_singleton _, trivial, trivial⟩,
    ⟨hscripts, trivial, trivial, trivial, trivial⟩,
    keysOnce_sortedRecord (dependencies_once deps), keysOnce_sortedRecord hpins, trivial⟩

theorem parse_emitPackageJson (deps : CompileDeps N) :
    parse F (emitPackageJson F deps) = some (manifest deps) :=
  parse_indented F (manifest deps) (manifest_keysOnce deps)

/-- The object in `emitTsconfig`. -/
def tsconfig : Value N :=
  .obj
    [(ascii "compilerOptions", .obj
      [(ascii "target", .str (ascii "ES2023")),
        (ascii "module", .str (ascii "NodeNext")),
        (ascii "moduleResolution", .str (ascii "NodeNext")),
        (ascii "lib", .arr [.str (ascii "ES2023")]),
        (ascii "types", .arr [.str (ascii "node")]),
        (ascii "strict", .bool true),
        (ascii "noUncheckedIndexedAccess", .bool true),
        (ascii "exactOptionalPropertyTypes", .bool true),
        (ascii "forceConsistentCasingInFileNames", .bool true),
        (ascii "verbatimModuleSyntax", .bool true),
        (ascii "skipLibCheck", .bool true),
        (ascii "noEmit", .bool true)]),
      (ascii "include", .arr [.str (ascii "agent/**/*.ts")])]

def emitTsconfig : JsString := indented F [] tsconfig ++ ascii "\n"

theorem parse_emitTsconfig : parse F (emitTsconfig F) = some tsconfig := by
  have hoptions : [ascii "target", ascii "module", ascii "moduleResolution", ascii "lib",
    ascii "types", ascii "strict", ascii "noUncheckedIndexedAccess",
    ascii "exactOptionalPropertyTypes", ascii "forceConsistentCasingInFileNames",
    ascii "verbatimModuleSyntax", ascii "skipLibCheck", ascii "noEmit"].Nodup := by decide
  have hmembers : [ascii "compilerOptions", ascii "include"].Nodup := by decide
  exact parse_indented F tsconfig ⟨hmembers, ⟨hoptions, trivial, trivial, trivial,
    ⟨trivial, trivial⟩, ⟨trivial, trivial⟩, trivial, trivial, trivial, trivial, trivial, trivial,
    trivial, trivial⟩, ⟨trivial, trivial⟩, trivial⟩

end InvisibleString.Compiler
