import InvisibleString.Compiler.Passages
import InvisibleString.Compiler.Tree
import InvisibleString.Lib.Prototype

/- # `Compiler.Literals` — what the literals of the generated files denote

Each generated file is told a second time: its code, and the strings that stand in it.  Read by
the rules of its language the file is that code with a literal for each string.  The one text
that is no literal and comes from an input is a numeral, looked up under the id of the model.

**Proved here.**

    the emitters write the code with quoted strings  (`emitConnection_eq_render` and others)
    of an accepted input every file is read so, exactly when the model is not one for OpenRouter
      whose id is a name that every object has  (`literals_denote_iff`)
    the id `constructor` is accepted and puts code in the place of a numeral
                                                                   (`constructor_as_numeral`)
-/

namespace InvisibleString.Compiler

open Json Scanner
open InvisibleString.Runtime (CaseMapping connectionTokenEnvVar isSlugOrHyphen)

variable {N : Type} {T : Templates} (U : CaseMapping)

/-! ## Lists of strings -/

def stringArraySegments (values : List JsString) : List Segment :=
  .code (ascii "[") :: joinSegments (ascii ", ") (values.map fun value => [.literal value]) ++
    [.code (ascii "]")]

theorem render_stringArray (values : List JsString) :
    render (stringArraySegments values) = tsStringArray values := by
  have hvalues : ((values.map fun value => [Segment.literal value]).map render) =
      values.map tsString := by
    rw [List.map_map]
    exact List.map_congr_left fun value _ => List.append_nil (quote value)
  rw [stringArraySegments, List.cons_append, render_cons, render_append, render_joinSegments,
    hvalues]
  rfl

theorem closed_stringArray (values : List JsString) : Closed (stringArraySegments values) := by
  refine .code (by decide) (.append (closed_joinSegments (by decide) ?_)
    (closed_code (by decide)))
  intro part hpart
  obtain ⟨value, -, rfl⟩ := List.mem_map.mp hpart
  exact closed_literal value

/-! ## The agent -/

/-- The numeral that the table gives, or the default. -/
def contextWindow (modelId : JsString) : Nat :=
  (OrderedMap.get? modelId openrouterContextWindows).getD 131072

def reasoningSegments (T : Templates) (effort : JsString) : List Segment :=
  if effort = ascii "provider-default" then []
  else
    [.code (T.anthropicReasoning ++ (if effort = ascii "max" then T.anthropicClamped else []) ++
        ascii "\n  reasoning: "),
      .literal (anthropicEffort effort), .code (ascii ",")]

def anthropicSegments (T : Templates) (model : ResolvedModel) : List Segment :=
  [.code (T.anthropicStart ++ ascii "  model: anthropic("), .literal model.modelId,
      .code (ascii "),")] ++ reasoningSegments T model.reasoning ++
    [.code (ascii "\n" ++ T.limits ++ ascii "\n" ++ T.world ++ ascii "\n\x7d);\n")]

def modelSegments (effort : JsString) : List Segment :=
  if effort = ascii "provider-default" then [.code (ascii "openrouter(MODEL_ID)")]
  else
    [.code (ascii "openrouter(MODEL_ID, \x7b\n      extraBody: \x7b reasoning: \x7b effort: "),
      .literal effort, .code (ascii " \x7d \x7d,\n    \x7d)")]

/-- Up to the context window. -/
def openrouterHead (T : Templates) (model : ResolvedModel) : List Segment :=
  [.code (T.openrouterStart ++ ascii "const MODEL_ID = "), .literal model.modelId,
      .code (ascii ";\n" ++ T.openrouterDoc ++ openrouterReasoningDoc T model.reasoning ++
        T.openrouterResolve ++ ascii "    return ")] ++ modelSegments model.reasoning ++
    [.code (ascii ";\n" ++ T.openrouterDefine ++ ascii "  modelContextWindowTokens: ")]

def openrouterTail (T : Templates) : List Segment :=
  [.code (ascii ",\n" ++ T.limits ++ ascii "\n" ++ T.world ++ ascii "\n\x7d);\n")]

def agentSegments (T : Templates) (model : ResolvedModel) : List Segment :=
  if model.provider = ascii "anthropic" then anthropicSegments T model
  else
    openrouterHead T model ++
      .code (printNat (contextWindow model.modelId)) :: openrouterTail T

theorem emitAgentTs_anthropic {model : ResolvedModel}
    (h : model.provider = ascii "anthropic") :
    emitAgentTs T model = render (anthropicSegments T model) := by
  rw [emitAgentTs, if_pos h, anthropicSegments, reasoningSegments, anthropicReasoningBlock]
  split
  · simp only [render_append, render_cons, render_nil, Segment.text, tsString, List.append_assoc,
      List.append_nil]
  · simp only [render_append, render_cons, render_nil, Segment.text, tsString, List.append_assoc,
      List.append_nil]

theorem emitAgentTs_openrouter {model : ResolvedModel}
    (h : model.provider ≠ ascii "anthropic") :
    emitAgentTs T model = render (openrouterHead T model ++
      .code (openrouterContextWindowTokens T model.modelId) :: openrouterTail T) := by
  rw [emitAgentTs, if_neg h, openrouterHead, openrouterTail, modelSegments,
    openrouterModelExpression]
  split
  · simp only [render_append, render_cons, render_nil, Segment.text, tsString, List.append_assoc,
      List.append_nil]
  · simp only [render_append, render_cons, render_nil, Segment.text, tsString, List.append_assoc,
      List.append_nil]

section

variable (hT : T.Ends)

include hT

theorem endState_blocks {start : JsString} (hstart : endState .ready start = some .ready) :
    endState .ready (start ++ T.limits ++ ascii "\n" ++ T.world ++ ascii "\n\x7d);\n") =
      some .ready :=
  endState_append_some (endState_append_some (endState_append_some (endState_append_some hstart
    hT.limits) (by decide)) hT.world) (by decide)

theorem closed_reasoning (effort : JsString) : Closed (reasoningSegments T effort) := by
  rw [reasoningSegments]
  split
  · exact closed_nil
  · refine .code (endState_append_some (endState_append_some hT.anthropicReasoning ?_)
      (show endState .lineComment _ = _ by decide)) (.literal _ (closed_code (by decide)))
    split
    · exact hT.anthropicClamped
    · rfl

theorem closed_anthropic (model : ResolvedModel) : Closed (anthropicSegments T model) := by
  have hstart : endState .ready (T.anthropicStart ++ ascii "  model: anthropic(") = some .ready :=
    endState_append_some hT.anthropicStart (by decide)
  have hmodel : Closed [.code (T.anthropicStart ++ ascii "  model: anthropic("),
      .literal model.modelId, .code (ascii "),")] :=
    .code hstart (.literal _ (closed_code (by decide)))
  exact (hmodel.append (closed_reasoning hT _)).append
    (closed_code (endState_blocks hT (by decide)))

omit hT in
theorem closed_model (effort : JsString) : Closed (modelSegments effort) := by
  rw [modelSegments]
  split
  · exact closed_code (by decide)
  · exact .code (by decide) (.literal _ (closed_code (by decide)))

theorem closed_openrouterHead (model : ResolvedModel) : Closed (openrouterHead T model) := by
  have hdoc : endState .comment (openrouterReasoningDoc T model.reasoning) = some .comment := by
    rw [openrouterReasoningDoc]
    split
    · exact hT.openrouterNoReasoning
    · exact hT.openrouterExtraBody
  have hresolve : endState .ready (ascii ";\n" ++ T.openrouterDoc ++
      openrouterReasoningDoc T model.reasoning ++ T.openrouterResolve ++ ascii "    return ") =
      some .ready :=
    endState_append_some (endState_append_some (endState_append_some (endState_append_some
      (by decide) hT.openrouterDoc) hdoc) hT.openrouterResolve) (by decide)
  have hdefine : endState .ready (ascii ";\n" ++ T.openrouterDefine ++
      ascii "  modelContextWindowTokens: ") = some .ready :=
    endState_append_some (endState_append_some (by decide) hT.openrouterDefine) (by decide)
  have hmodel : Closed [.code (T.openrouterStart ++ ascii "const MODEL_ID = "),
      .literal model.modelId, .code (ascii ";\n" ++ T.openrouterDoc ++
        openrouterReasoningDoc T model.reasoning ++ T.openrouterResolve ++ ascii "    return ")] :=
    .code (endState_append_some hT.openrouterStart (by decide)) (.literal _ (closed_code hresolve))
  exact (hmodel.append (closed_model _)).append (closed_code hdefine)

theorem closed_openrouterTail : Closed (openrouterTail T) :=
  closed_code (endState_blocks hT (by decide))

theorem closed_agent (model : ResolvedModel) : Closed (agentSegments T model) := by
  rw [agentSegments]
  split
  · exact closed_anthropic hT model
  · exact (closed_openrouterHead hT model).append
      ((closed_openrouterTail hT).code (endState_printNat _))

end

/-! ## The libraries and the channel -/

def platformAuthSegments (T : Templates) (dev : Bool) (versionHash : JsString) : List Segment :=
  [.code (T.authImports ++ (if dev then ascii "\n  localDev," else []) ++ T.authComment ++
      (if dev then T.authDevNote else []) ++ T.authIssuer ++
      ascii "export const PLATFORM_JWT_ISSUER = "),
    .literal (ascii "invisible-string"),
    .code (ascii ";\nexport const PLATFORM_JWT_AUDIENCE = "),
    .literal (platformJwtAudienceForHash versionHash),
    .code (ascii ";\n" ++ T.authVerify ++
      (if dev then ascii "[platformJwt(), localDev()]" else ascii "[platformJwt()]") ++ T.authEnd)]

def eveChannelSegments (workspaceSlug agentSlug : JsString) : List Segment :=
  [.code (ascii "import \x7b defaultEveAuth, eveChannel \x7d from \"eve/channels/eve\";\n\n" ++
      ascii "import \x7b platformAuth \x7d from \"../lib/platform-auth.js\";\n" ++ ascii "
/**
 * Default HTTP channel (chat AND workflow-dispatched sessions). Route auth
 * is the platform JWT; onMessage injects platform context blocks — context
 * is an onMessage return, never a send() option.
 */
export default eveChannel(\x7b
  auth: platformAuth(),
  onMessage(ctx) \x7b
    const caller = ctx.eve.caller;
    const context = ["),
    .literal (ascii "Platform agent " ++ tsString agentSlug ++ ascii " in workspace " ++
      tsString workspaceSlug ++ ascii " (invisible-string)."),
    .code (ascii "];
    if (caller !== null) \x7b
      context.push(
        `Caller principal: $\x7bcaller.principalId\x7d ($\x7bcaller.principalType\x7d).`,
      );
    \x7d
    return \x7b auth: defaultEveAuth(ctx), context \x7d;
  \x7d,
\x7d);
")]

theorem emitPlatformAuthLib_eq_render (dev : Bool) (versionHash : JsString) :
    emitPlatformAuthLib T dev versionHash = render (platformAuthSegments T dev versionHash) := by
  rw [emitPlatformAuthLib, platformAuthSegments]
  simp only [render_cons, render_nil, Segment.text, tsString, List.append_assoc, List.append_nil]

theorem closed_platformAuth (hT : T.Ends) (dev : Bool) (versionHash : JsString) :
    Closed (platformAuthSegments T dev versionHash) := by
  have himport : endState .ready (if dev then ascii "\n  localDev," else []) = some .ready := by
    cases dev <;> decide
  have hnote : endState .comment (if dev then T.authDevNote else []) = some .comment := by
    cases dev with
    | false => rfl
    | true => exact hT.authDevNote
  have hchain : endState .ready (if dev then ascii "[platformJwt(), localDev()]"
      else ascii "[platformJwt()]") = some .ready := by
    cases dev <;> decide
  refine .code (endState_append_some (endState_append_some (endState_append_some
    (endState_append_some (endState_append_some hT.authImports himport) hT.authComment) hnote)
    hT.authIssuer) (by decide)) (.literal _ (.code (by decide) (.literal _ (closed_code ?_))))
  exact endState_append_some (endState_append_some (endState_append_some (by decide)
    hT.authVerify) hchain) hT.authEnd

theorem emitEveChannel_eq_render (workspaceSlug agentSlug : JsString) :
    emitEveChannel workspaceSlug agentSlug =
      render (eveChannelSegments workspaceSlug agentSlug) := by
  rw [emitEveChannel, eveChannelSegments]
  simp only [render_cons, render_nil, Segment.text, tsString, List.append_assoc, List.append_nil]

theorem closed_eveChannel (workspaceSlug agentSlug : JsString) :
    Closed (eveChannelSegments workspaceSlug agentSlug) := by
  refine .code (endState_code_append (endState_code_append ?_ ?_) ?_)
    (.literal _ (closed_code ?_))
  all_goals
    apply endState_ascii
    decide +kernel

/-! ## Connections -/

/-- The import, the header and the expression of an approval policy. -/
def approvalSegments (slug : JsString) :
    ApprovalExpression → List Segment × List Segment × List Segment
  | .never => ([.code (ascii "import \x7b never \x7d from \"eve/tools/approval\";\n")], [],
      [.code (ascii "never()")])
  | .once => ([.code (ascii "import \x7b once \x7d from \"eve/tools/approval\";\n")], [],
      [.code (ascii "once()")])
  | .always => ([.code (ascii "import \x7b always \x7d from \"eve/tools/approval\";\n")], [],
      [.code (ascii "always()")])
  | .checks lists fallback =>
    ([],
      .code (ascii "\n/**
 * Per-tool approval policy. Connection tool names arrive QUALIFIED as
 * \"" ++ slug ++ ascii "__<tool>\" (eve prefixes the connection slug), so the lists below
 * bake the qualified names at compile time.
 */\n") :: joinSegments (ascii "\n") (lists.map fun list =>
          .code (ascii "const " ++ list.2.listName ++ ascii ": readonly string[] = ") ::
            stringArraySegments list.1 ++ [.code (ascii ";")]) ++ [.code (ascii "\n")],
      .code (ascii "(\x7b toolName \x7d) => \x7b\n") ::
        joinSegments (ascii "\n") (lists.map fun list =>
          [.code (ascii "    if (" ++ list.2.listName ++ ascii ".includes(toolName)) return " ++
            list.2.text ++ ascii ";")]) ++
        [.code (ascii "\n    return " ++ fallback.text ++ ascii ";\n  \x7d")])

/-- The import and the property of a connection's auth. -/
def authSegments (slug : JsString) : ConnectionAuthSpec → List Segment × List Segment
  | .none => ([], [])
  | .bearerToken =>
    ([.code (ascii "\nimport \x7b requireEnv \x7d from \"../lib/env.js\";\n")],
      [.code (ascii "
  auth: \x7b
    // Lazy: probed per tool call, so keyless builds/boots never crash.
    getToken: async () => (\x7b token: requireEnv("), .literal (connectionTokenEnvVar U slug),
        .code (ascii ") \x7d),
  \x7d,")])
  | .headers entries =>
    ([.code (ascii "\nimport \x7b requireEnv \x7d from \"../lib/env.js\";\n")],
      .code (ascii "
  // Lazy callback: env vars are read per request, never at module load.
  headers: () => (\x7b\n") ::
        joinSegments (ascii "\n") ((sortBy Prod.fst entries.entries).map fun e =>
          [.code (ascii "    "), .literal e.1, .code (ascii ": requireEnv("), .literal e.2,
            .code (ascii "),")]) ++
        [.code (ascii "\n  \x7d),")])
  | .oauth connectionId =>
    ([.code (ascii
        "\nimport \x7b platformConnectionToken \x7d from \"../lib/platform-token.js\";\n")],
      [.code (ascii "
  auth: \x7b
    // Broker-delivered: the platform mints short-lived access tokens; no OAuth
    // material lives in agent env. Lazy so keyless builds never crash.
    getToken: async () => (\x7b token: await platformConnectionToken("), .literal connectionId,
        .code (ascii ") \x7d),
  \x7d,")])

def toolsSegments : Option ToolFilterSpec → List Segment
  | none => []
  | some tools =>
    .code (ascii "\n  tools: ") ::
      (match tools.allow with
      | some allow =>
        .code (ascii "\x7b allow: ") :: stringArraySegments allow ++ [.code (ascii " \x7d")]
      | none =>
        .code (ascii "\x7b block: ") :: stringArraySegments (tools.block.getD []) ++
          [.code (ascii " \x7d")]) ++
      [.code (ascii ",")]

def connectionSegments (connection : ResolvedMcpConnection) : List Segment :=
  let slug := connection.slug
  let approval := approvalSegments slug (approvalExpression slug connection.approval)
  let auth := authSegments U slug connection.auth
  approval.1 ++
    .code (ascii "import \x7b defineMcpClientConnection \x7d from \"eve/connections\";\n") ::
    auth.1 ++ approval.2.1 ++
    [.code (ascii "\n/** MCP connection \"" ++ slug ++ ascii "\" (agent context). */
export default defineMcpClientConnection(\x7b
  url: "), .literal connection.url, .code (ascii ",
  description: "), .literal connection.description, .code (ascii ",")] ++ auth.2 ++
    toolsSegments connection.tools ++ .code (ascii "
  approval: ") :: approval.2.2 ++ [.code (ascii ",
\x7d);
")]

theorem approvalText_eq_render (slug : JsString) (expression : ApprovalExpression) :
    approvalText slug expression = (render (approvalSegments slug expression).1,
      render (approvalSegments slug expression).2.1,
      render (approvalSegments slug expression).2.2) := by
  cases expression with
  | never => rfl
  | once => rfl
  | always => rfl
  | checks lists fallback =>
    simp only [approvalText, approvalSegments, List.cons_append, render_append, render_cons,
      render_nil, render_joinSegments, render_stringArray, List.map_map, Function.comp_def,
      Segment.text, List.append_assoc, List.append_nil]

theorem authText_eq_render (slug : JsString) (auth : ConnectionAuthSpec) :
    authText U slug auth = (render (authSegments U slug auth).1,
      render (authSegments U slug auth).2) := by
  cases auth with
  | none => rfl
  | bearerToken =>
    simp only [authText, authSegments, render_cons, render_nil, Segment.text, tsString,
      List.append_assoc, List.append_nil]
  | headers entries =>
    simp only [authText, authSegments, List.cons_append, render_append, render_cons, render_nil,
      render_joinSegments, List.map_map, Function.comp_def, Segment.text, tsString,
      List.append_assoc, List.append_nil]
  | oauth connectionId =>
    simp only [authText, authSegments, render_cons, render_nil, Segment.text, tsString,
      List.append_assoc, List.append_nil]

theorem toolsText_eq_render (tools : Option ToolFilterSpec) :
    toolsText tools = render (toolsSegments tools) := by
  cases tools with
  | none => rfl
  | some tools =>
    rw [toolsText, toolsSegments]
    cases tools.allow with
    | none =>
      simp only [List.cons_append, render_append, render_cons, render_nil, render_stringArray,
        Segment.text, List.append_assoc, List.append_nil, List.nil_append]
    | some allow =>
      simp only [List.cons_append, render_append, render_cons, render_nil, render_stringArray,
        Segment.text, List.append_assoc, List.append_nil, List.nil_append]

theorem emitConnection_eq_render (connection : ResolvedMcpConnection) :
    emitConnection U connection = render (connectionSegments U connection) := by
  simp only [emitConnection, connectionSegments, approvalText_eq_render, authText_eq_render,
    toolsText_eq_render, List.cons_append, render_append, render_cons, render_nil, Segment.text,
    tsString, List.append_assoc, List.append_nil, List.nil_append]

section

variable {slug : JsString} (hslug : isSlug slug = true)

include hslug

theorem star_not_mem_slug : unit '*' ∉ slug := not_mem_slug (by decide) hslug

theorem closed_approval (expression : ApprovalExpression) :
    Closed (approvalSegments slug expression).1 ∧ Closed (approvalSegments slug expression).2.1 ∧
      Closed (approvalSegments slug expression).2.2 := by
  cases expression with
  | never => exact ⟨closed_code (by decide), closed_nil, closed_code (by decide)⟩
  | once => exact ⟨closed_code (by decide), closed_nil, closed_code (by decide)⟩
  | always => exact ⟨closed_code (by decide), closed_nil, closed_code (by decide)⟩
  | checks lists fallback =>
    refine ⟨closed_nil, ?_, ?_⟩
    · refine .code ?_ (.append (closed_joinSegments (by decide) ?_) (closed_code (by decide)))
      · have hstart : endState .ready (ascii "\n/**
 * Per-tool approval policy. Connection tool names arrive QUALIFIED as
 * \"") = some .comment := by
          apply endState_ascii
          decide +kernel
        refine endState_append_some (endState_append_some hstart
          (endState_comment (star_not_mem_slug hslug))) ?_
        apply endState_ascii
        decide +kernel
      · intro part hpart
        obtain ⟨list, -, rfl⟩ := List.mem_map.mp hpart
        refine .code ?_ (.append (closed_stringArray _) (closed_code (by decide)))
        cases list.2 <;> decide
    · refine .code (by decide) (.append (closed_joinSegments (by decide) ?_) (closed_code ?_))
      · intro part hpart
        obtain ⟨list, -, rfl⟩ := List.mem_map.mp hpart
        refine closed_code ?_
        cases list.2 <;> decide
      · cases fallback <;> decide

omit hslug in
theorem closed_auth (auth : ConnectionAuthSpec) :
    Closed (authSegments U slug auth).1 ∧ Closed (authSegments U slug auth).2 := by
  cases auth with
  | none => exact ⟨closed_nil, closed_nil⟩
  | bearerToken =>
    refine ⟨closed_code ?_, .code ?_ (.literal _ (closed_code ?_))⟩
    all_goals
      apply endState_ascii
      decide +kernel
  | headers entries =>
    refine ⟨closed_code ?_, .code ?_ (.append (closed_joinSegments (by decide) ?_)
      (closed_code (by decide)))⟩
    · apply endState_ascii
      decide +kernel
    · apply endState_ascii
      decide +kernel
    · intro part hpart
      obtain ⟨e, -, rfl⟩ := List.mem_map.mp hpart
      exact .code (by decide) (.literal _ (.code (by decide)
        (.literal _ (closed_code (by decide)))))
  | oauth connectionId =>
    refine ⟨closed_code ?_, .code ?_ (.literal _ (closed_code ?_))⟩
    all_goals
      apply endState_ascii
      decide +kernel

omit hslug in
theorem closed_tools (tools : Option ToolFilterSpec) : Closed (toolsSegments tools) := by
  cases tools with
  | none => exact closed_nil
  | some tools =>
    rw [toolsSegments]
    cases tools.allow with
    | none =>
      exact .code (by decide) (.append (.code (by decide)
        (.append (closed_stringArray _) (closed_code (by decide)))) (closed_code (by decide)))
    | some allow =>
      exact .code (by decide) (.append (.code (by decide)
        (.append (closed_stringArray _) (closed_code (by decide)))) (closed_code (by decide)))

end

theorem closed_connection {connection : ResolvedMcpConnection}
    (hslug : isSlug connection.slug = true) : Closed (connectionSegments U connection) := by
  obtain ⟨himport, hheader, hexpression⟩ := closed_approval hslug
    (approvalExpression connection.slug connection.approval)
  have hauth : Closed (authSegments U connection.slug connection.auth).1 ∧
      Closed (authSegments U connection.slug connection.auth).2 := closed_auth U connection.auth
  have hcomment : endState .ready (ascii "\n/** MCP connection \"" ++ connection.slug ++
      ascii "\" (agent context). */
export default defineMcpClientConnection(\x7b
  url: ") = some .ready := by
    refine endState_append_some (endState_append_some
      (show endState .ready _ = some .comment by decide)
      (endState_comment (star_not_mem_slug hslug))) ?_
    apply endState_ascii
    decide +kernel
  have hfields : Closed [.code (ascii "\n/** MCP connection \"" ++ connection.slug ++
      ascii "\" (agent context). */
export default defineMcpClientConnection(\x7b
  url: "), .literal connection.url, .code (ascii ",
  description: "), .literal connection.description, .code (ascii ",")] :=
    .code hcomment (.literal _ (.code (by decide) (.literal _ (closed_code (by decide)))))
  have hend : Closed (.code (ascii "
  approval: ") :: (approvalSegments connection.slug
      (approvalExpression connection.slug connection.approval)).2.2 ++ [.code (ascii ",
\x7d);
")]) := .code (by decide) (hexpression.append (closed_code (by decide)))
  have hstart : Closed [.code
      (ascii "import \x7b defineMcpClientConnection \x7d from \"eve/connections\";\n")] :=
    closed_code (by decide)
  have hall := himport.append (hstart.append (hauth.1.append (hheader.append
    (hfields.append (hauth.2.append ((closed_tools connection.tools).append hend))))))
  simp only [connectionSegments, List.cons_append, List.append_assoc, List.nil_append] at hall ⊢
  exact hall

/-! ## Files -/

/-- The text is the code with a literal for each string. -/
structure ReadsAs (content : JsString) (segments : List Segment) : Prop where
  parses : ∃ pieces, scan content = some pieces ∧ scanSegments segments = some pieces
  /-- other strings leave the code as it is -/
  apart : (scan content).map (List.map Piece.blank) =
    (scanSegments (segments.map Segment.blank)).map (List.map Piece.blank)

theorem readsAs_render {segments : List Segment} (h : Closed segments) :
    ReadsAs (render segments) segments := by
  obtain ⟨pieces, hpieces⟩ := h.scan
  have hscan := scan_render hpieces
  refine ⟨⟨pieces, hscan, hpieces⟩, ?_⟩
  rw [scanSegments_blank, hscan, hpieces]

/-- What a file is to be. -/
inductive FileSpec (N : Type) where
  | typescript (segments : List Segment)
  | json (value : Value N)
  /-- a front matter with the description, and a body -/
  | skill (description body : JsString)
  | text (content : JsString)

def FileSpec.Holds (F : NumberFormat N) (content : JsString) : FileSpec N → Prop
  | .typescript segments => ReadsAs content segments
  | .json value => parse F content = some value
  | .skill description body =>
    readFrontMatter (ascii "description") content = some (description, body)
  | .text expected => content = expected

/-- The file is at its path what it is to be. -/
def Meets (F : NumberFormat N) (file : ProjectFile) (spec : JsString × FileSpec N) : Prop :=
  file.1 = spec.1 ∧ spec.2.Holds F file.2

def skillSpecs (skill : ResolvedSkill) : List (JsString × FileSpec N) :=
  let body := ascii "\n" ++ trimTail skill.markdown ++ ascii "\n"
  if skill.extraFiles = [] then
    [(ascii "agent/skills/" ++ skill.slug ++ ascii ".md", .skill skill.description body)]
  else
    (ascii "agent/skills/" ++ skill.slug ++ ascii "/SKILL.md", .skill skill.description body) ::
      (sortBy Prod.fst skill.extraFiles).map fun file =>
        (ascii "agent/skills/" ++ skill.slug ++ ascii "/" ++ file.1, .text file.2)

/-- The files of a project: those of `projectFiles`, by what they say. -/
def projectSpecs (T : Templates) (deps : CompileDeps N) (instructions hash : JsString) :
    List (JsString × FileSpec N) :=
  let connections := sortedConnections deps
  let kinds := connections.map fun c => c.auth.kind
  [(ascii "package.json", .json (manifest deps)),
    (ascii "tsconfig.json", .json tsconfig),
    (ascii "agent/agent.ts", .typescript (agentSegments T deps.resolvedModel)),
    (ascii "agent/instructions.md", .text instructions),
    (ascii "agent/lib/platform-auth.ts", .typescript (platformAuthSegments T deps.dev hash))] ++
  (if kinds.any (· ≠ ascii "none") then
    [(ascii "agent/lib/env.ts", .typescript [.code T.envLib])] else []) ++
  (if kinds.any (· = ascii "oauth") then
    [(ascii "agent/lib/platform-token.ts", .typescript [.code T.platformTokenLib])] else []) ++
  [(ascii "agent/channels/eve.ts",
    .typescript (eveChannelSegments deps.workspaceSlug deps.agentSlug))] ++
  (connections.map fun c =>
    (ascii "agent/connections/" ++ c.slug ++ ascii ".ts", .typescript (connectionSegments U c))) ++
  (sortedSkills deps).flatMap skillSpecs

theorem meets_skillMarkdown (F : NumberFormat N) (path : JsString) (skill : ResolvedSkill) :
    Meets F (path, skillMarkdown skill) (path, .skill skill.description
      (ascii "\n" ++ trimTail skill.markdown ++ ascii "\n")) := by
  have h := readFrontMatter_quote (ascii "description") skill.description
    (ascii "\n" ++ trimTail skill.markdown ++ ascii "\n")
  have hkey : ascii "---\ndescription: " = ascii "---\n" ++ ascii "description" ++ ascii ": " := by
    decide
  have hbreak : ascii "\n---\n\n" = ascii "\n---\n" ++ ascii "\n" := by decide
  refine ⟨rfl, ?_⟩
  show readFrontMatter (ascii "description") (skillMarkdown skill) = _
  rw [← h, skillMarkdown, hkey, hbreak]
  simp only [yamlString, List.append_assoc]

theorem meets_emitSkill (F : NumberFormat N) (skill : ResolvedSkill) :
    List.Forall₂ (Meets F) (emitSkill skill) (skillSpecs skill) := by
  rw [emitSkill, skillSpecs]
  split
  · exact .cons (meets_skillMarkdown F _ skill) .nil
  · refine .cons (meets_skillMarkdown F _ skill) ?_
    rw [List.forall₂_map_left_iff, List.forall₂_map_right_iff]
    exact List.forall₂_same.mpr fun file _ => ⟨rfl, rfl⟩

/-- The files other than the agent's are as they are to be. -/
theorem meets_rest {C : Toolchain N} {deps : CompileDeps N} (hT : C.templates.Ends)
    (htsconfig : C.templates.tsconfig = emitTsconfig C.numbers) (hnamed : Named deps)
    (instructions hash : JsString) :
    List.Forall₂ (Meets C.numbers) (projectFiles C deps instructions hash)
        (projectSpecs C.cases C.templates deps instructions hash) ↔
      ReadsAs (emitAgentTs C.templates deps.resolvedModel)
        (agentSegments C.templates deps.resolvedModel) := by
  have hcode : ∀ {text : JsString}, endState .ready text = some .ready →
      ReadsAs text [.code text] := by
    intro text h
    have hreads := readsAs_render (closed_code h)
    rw [render_cons, render_nil, Segment.text, List.append_nil] at hreads
    exact hreads
  have hif : ∀ (c : Prop) [Decidable c] (path content : JsString),
      ReadsAs content [.code content] → List.Forall₂ (Meets C.numbers)
        (if c then [(path, content)] else [])
        (if c then [(path, .typescript [.code content])] else []) := by
    intro c _ path content h
    by_cases hc : c
    · rw [if_pos hc, if_pos hc]
      exact .cons ⟨rfl, h⟩ .nil
    · rw [if_neg hc, if_neg hc]
      exact .nil
  have hconnections : List.Forall₂ (Meets C.numbers) (connectionFiles C deps)
      ((sortedConnections deps).map fun c => (ascii "agent/connections/" ++ c.slug ++
        ascii ".ts", FileSpec.typescript (connectionSegments C.cases c))) := by
    rw [connectionFiles, List.forall₂_map_left_iff, List.forall₂_map_right_iff]
    refine List.forall₂_same.mpr fun c hc => ⟨rfl, ?_⟩
    have hreads := readsAs_render (closed_connection C.cases (hnamed.connections c hc))
    rw [← emitConnection_eq_render] at hreads
    exact hreads
  have hskills : List.Forall₂ (Meets C.numbers) ((sortedSkills deps).flatMap emitSkill)
      ((sortedSkills deps).flatMap skillSpecs) := by
    induction sortedSkills deps with
    | nil => exact .nil
    | cons skill skills ih => exact List.rel_append (meets_emitSkill C.numbers skill) ih
  have hchannel : Meets C.numbers
      (ascii "agent/channels/eve.ts", emitEveChannel deps.workspaceSlug deps.agentSlug)
      (ascii "agent/channels/eve.ts",
        .typescript (eveChannelSegments deps.workspaceSlug deps.agentSlug)) := by
    rw [emitEveChannel_eq_render]
    exact ⟨rfl, readsAs_render (closed_eveChannel _ _)⟩
  have hauth : ReadsAs (emitPlatformAuthLib C.templates deps.dev hash)
      (platformAuthSegments C.templates deps.dev hash) := by
    rw [emitPlatformAuthLib_eq_render]
    exact readsAs_render (closed_platformAuth hT _ _)
  constructor
  · intro h
    cases h with
    | cons _ h =>
      cases h with
      | cons _ h =>
        cases h with
        | cons hagent _ => exact hagent.2
  · intro hagent
    refine List.rel_append (List.rel_append (List.rel_append (List.rel_append (List.rel_append
      ?_ (hif _ _ _ (hcode hT.envLib))) (hif _ _ _ (hcode hT.platformTokenLib)))
      (.cons hchannel .nil)) hconnections) hskills
    refine .cons ⟨rfl, parse_emitPackageJson C.numbers deps⟩ (.cons ⟨rfl, ?_⟩
      (.cons ⟨rfl, hagent⟩ (.cons ⟨rfl, rfl⟩ (.cons ⟨rfl, hauth⟩ .nil))))
    show parse C.numbers C.templates.tsconfig = _
    rw [htsconfig]
    exact parse_emitTsconfig C.numbers

/-! ## The numeral -/

/-- What a plain object answers to the names it does not list, as a text: the methods of
`Object.prototype` by their sources, and `Object.prototype` itself. -/
structure InheritedTexts (inherited : JsString → Option JsString) : Prop where
  names : ∀ name, (inherited name).isSome = isInherited name
  texts : ∀ name text, inherited name = some text →
    (ascii "function").isPrefixOf text ∨ text = ascii "[object Object]"

/-- Code that begins otherwise is read otherwise. -/
theorem scan_ne {head : List Segment} (hhead : Closed head) {c d : CodeUnit} {t u : JsString}
    {tail : List Segment} {pieces : List Piece}
    (hc : State.ready.step c = some ([.code c], .ready))
    (hd : State.ready.step d = some ([.code d], .ready)) (hne : c ≠ d)
    (h : scan (render (head ++ .code (c :: t) :: tail)) = some pieces) :
    scan (render (head ++ .code (d :: u) :: tail)) ≠ some pieces := by
  intro h'
  obtain ⟨front, hfront⟩ := runSegments_of_end hhead
  have hrun : ∀ (e : CodeUnit) (v : JsString), State.ready.step e = some ([.code e], .ready) →
      scan (render (head ++ .code (e :: v) :: tail)) = some pieces →
      ∃ rest, pieces = front ++ .code e :: rest := by
    intro e v he hscan
    have htext : render (head ++ .code (e :: v) :: tail) =
        render head ++ e :: (v ++ render tail) := by
      rw [render_append, render_cons, Segment.text]
      rfl
    rw [htext, scan, run_append_some (run_render hfront), run_cons he] at hscan
    cases hrest : run .ready (v ++ render tail) with
    | none =>
      rw [hrest] at hscan
      cases hscan
    | some r =>
      rw [hrest, Option.map_some, Option.map_some, finished] at hscan
      split at hscan
      · exact ⟨r.1, (Option.some.inj hscan).symm⟩
      · cases hscan
  obtain ⟨rest, hrest⟩ := hrun c t hc h
  obtain ⟨rest', hrest'⟩ := hrun d u hd h'
  rw [hrest] at hrest'
  have hcode := (List.cons.inj (List.append_cancel_left hrest')).1
  exact hne (Piece.code.inj hcode)

/-- The agent is read as it is to be, exactly when the number is found in the table or is the
default. -/
theorem agent_reads_iff (hT : T.Ends) (hinherited : InheritedTexts T.inherited)
    (model : ResolvedModel) : ReadsAs (emitAgentTs T model) (agentSegments T model) ↔
      model.provider = ascii "anthropic" ∨ isInherited model.modelId = false := by
  have hclosed := closed_agent hT model
  have hdigits : ∀ n, ∃ d u, printNat n = d :: u ∧ unit '0' ≤ d ∧ d ≤ unit '9' := by
    intro n
    obtain ⟨d, u, hnumeral⟩ := List.exists_cons_of_ne_nil (printNat_ne_nil n)
    exact ⟨d, u, hnumeral, mem_printNat (by rw [hnumeral]; exact List.mem_cons_self)⟩
  by_cases hprovider : model.provider = ascii "anthropic"
  · refine ⟨fun _ => Or.inl hprovider, fun _ => ?_⟩
    rw [emitAgentTs_anthropic hprovider, agentSegments, if_pos hprovider]
    exact readsAs_render (closed_anthropic hT model)
  · rw [agentSegments, if_neg hprovider] at hclosed ⊢
    rw [emitAgentTs_openrouter hprovider]
    have hinjective : ∀ numeral, openrouterContextWindowTokens T model.modelId = numeral →
        numeral = printNat (contextWindow model.modelId) →
        ReadsAs (render (openrouterHead T model ++ .code
          (openrouterContextWindowTokens T model.modelId) :: openrouterTail T))
          (openrouterHead T model ++ .code (printNat (contextWindow model.modelId)) ::
            openrouterTail T) := by
      intro numeral htokens hnumeral
      rw [htokens, hnumeral]
      exact readsAs_render hclosed
    cases htext : T.inherited model.modelId with
    | none =>
      have hname := hinherited.names model.modelId
      rw [htext] at hname
      refine ⟨fun _ => Or.inr hname.symm, fun _ => hinjective _ rfl ?_⟩
      rw [openrouterContextWindowTokens, contextWindow]
      cases OrderedMap.get? model.modelId openrouterContextWindows with
      | some tokens => rfl
      | none =>
        rw [htext]
        rfl
    | some text =>
      have hname := hinherited.names model.modelId
      rw [htext] at hname
      constructor
      · intro hreads
        -- no name of the table is one that every object has
        have htable : OrderedMap.get? model.modelId openrouterContextWindows = none := by
          rw [OrderedMap.get?_eq_none]
          intro hmem
          have hnone : ∀ name ∈ openrouterContextWindows.map Prod.fst,
              isInherited name = false := by
            decide
          rw [hnone _ hmem] at hname
          cases hname
        have htokens : openrouterContextWindowTokens T model.modelId = text := by
          rw [openrouterContextWindowTokens, htable, htext]
          rfl
        obtain ⟨pieces, hscan, hsegments⟩ := hreads.parses
        obtain ⟨d, u, hnumeral, hd⟩ := hdigits (contextWindow model.modelId)
        have hscan' := scan_render hsegments
        rw [hnumeral] at hscan'
        rw [htokens] at hscan
        have hbegins : ∃ c t, text = c :: t ∧ State.ready.step c = some ([.code c], .ready) ∧
            ¬ (unit '0' ≤ c ∧ c ≤ unit '9') := by
          rcases hinherited.texts _ _ htext with hfunction | hobject
          · obtain ⟨t, ht⟩ := List.isPrefixOf_iff_prefix.mp hfunction
            exact ⟨unit 'f', ascii "unction" ++ t, ht.symm, by decide, by decide⟩
          · exact ⟨unit '[', ascii "object Object]", hobject, by decide, by decide⟩
        obtain ⟨c, t, rfl, hc, hnot⟩ := hbegins
        have hne : c ≠ d := by
          rintro rfl
          exact hnot hd
        exact absurd hscan' (scan_ne (closed_openrouterHead hT model) hc
          (congrArg some (codeStep_digit hd [])) hne hscan)
      · rintro (hanthropic | hfalse)
        · exact absurd hanthropic hprovider
        · rw [hfalse] at hname
          cases hname

/-! ## The project -/

/-- Each file of the project is what it is to be, the instructions the persona with its
references resolved. -/
def Denotes (C : Toolchain N) (definition : JsValue N) (deps : CompileDeps N)
    (result : CompileResult) : Prop :=
  ∃ parsed instructions, parseDefinition C.schema definition = some parsed ∧
    renderInstructions parsed.persona ((sortedConnections deps).map ResolvedMcpConnection.entry)
      ((sortedSkills deps).map ResolvedSkill.entry) = .ok instructions ∧
    List.Forall₂ (Meets C.numbers) result.files
      (projectSpecs C.cases C.templates deps instructions result.hash)

theorem compile_instructions {C : Toolchain N} {definition : JsValue N} {deps : CompileDeps N}
    {result : CompileResult} (h : compile C definition deps = .ok result) :
    ∃ parsed instructions, parseDefinition C.schema definition = some parsed ∧
      renderInstructions parsed.persona
        ((sortedConnections deps).map ResolvedMcpConnection.entry)
        ((sortedSkills deps).map ResolvedSkill.entry) = .ok instructions ∧
      Named deps ∧ result.files = projectFiles C deps instructions result.hash := by
  obtain ⟨parsed, instructions, text, haccepted, rfl⟩ := compile_ok.mp h
  have hnamed := named_of_valid haccepted.valid
  exact ⟨parsed, instructions, haccepted.read, haccepted.rendered, hnamed,
    OrderedMap.setAll_nil_of_unique (projectFiles_once hnamed instructions (C.sha256 text))⟩

theorem Denotes.agent {C : Toolchain N} {definition : JsValue N} {deps : CompileDeps N}
    {result : CompileResult} (h : compile C definition deps = .ok result)
    (hdenotes : Denotes C definition deps result) :
    ReadsAs (emitAgentTs C.templates deps.resolvedModel)
      (agentSegments C.templates deps.resolvedModel) := by
  obtain ⟨parsed, instructions, hread, hrendered, hnamed, hfiles⟩ := compile_instructions h
  obtain ⟨_, _, _, _, hall⟩ := hdenotes
  rw [hfiles] at hall
  cases hall with
  | cons _ hall =>
    cases hall with
    | cons _ hall =>
      cases hall with
      | cons hagent _ => exact hagent.2

/-- Of an accepted input every file is read as it is to be, exactly when no inherited name is
looked up. -/
theorem literals_denote_iff (C : Toolchain N) (inherited : JsString → Option JsString)
    (hC : C.templates = sourceTemplates C.numbers inherited)
    (hinherited : InheritedTexts inherited) {definition : JsValue N} {deps : CompileDeps N}
    {result : CompileResult} (h : compile C definition deps = .ok result) :
    Denotes C definition deps result ↔ deps.resolvedModel.provider = ascii "anthropic" ∨
      isInherited deps.resolvedModel.modelId = false := by
  obtain ⟨parsed, instructions, hread, hrendered, hnamed, hfiles⟩ := compile_instructions h
  have hT : C.templates.Ends := by
    rw [hC]
    exact sourceTemplates_ends C.numbers inherited
  have htsconfig : C.templates.tsconfig = emitTsconfig C.numbers := by
    rw [hC]
    rfl
  have hnames : InheritedTexts C.templates.inherited := by
    rw [hC]
    exact hinherited
  rw [← agent_reads_iff hT hnames]
  constructor
  · exact Denotes.agent h
  · intro hagent
    refine ⟨parsed, instructions, hread, hrendered, ?_⟩
    rw [hfiles]
    exact (meets_rest hT htsconfig hnamed instructions result.hash).mpr hagent

/-! ## An id that every object answers to -/

/-- Each method prints as a native function; `constructor` is `Object`. -/
def standardTexts (name : JsString) : Option JsString :=
  if name = protoName then some (ascii "[object Object]")
  else if name ∈ prototypeMethods then
    some (ascii "function " ++ (if name = ascii "constructor" then ascii "Object" else name) ++
      ascii "() \x7b [native code] \x7d")
  else none

theorem inheritedTexts_standard : InheritedTexts standardTexts := by
  constructor
  · intro name
    by_cases hproto : name = protoName
    · rw [standardTexts, if_pos hproto, isInherited, decide_eq_true hproto]
      rfl
    · rw [standardTexts, if_neg hproto, isInherited, decide_eq_false hproto, Bool.false_or]
      by_cases hmethod : name ∈ prototypeMethods
      · rw [if_pos hmethod, decide_eq_true hmethod]
        rfl
      · rw [if_neg hmethod, decide_eq_false hmethod]
        rfl
  · intro name text htext
    rw [standardTexts] at htext
    split at htext
    · exact Or.inr (Option.some.inj htext).symm
    · split at htext
      · left
        rw [← Option.some.inj htext, List.append_assoc, List.isPrefixOf_iff_prefix]
        exact (List.prefix_append _ (ascii " ")).trans (List.prefix_append _ _)
      · cases htext

def standardToolchain : Toolchain Int :=
  { plainToolchain with templates := sourceTemplates decimal standardTexts }

def awkwardSkill : ResolvedSkill :=
  ⟨ascii "guide", ascii "guide", ascii "A \"guide\" */ $\x7b \x7d", ascii "Read.", none⟩

/-- The skill, with a model of OpenRouter. -/
def routedDeps (modelId : String) : CompileDeps Int :=
  { skillDeps awkwardSkill with
    resolvedModel := ⟨ascii "openrouter", ascii modelId, ascii "high"⟩ }

theorem routedAccepted (modelId : String)
    (hvalid : (validateInput standardToolchain skillParsed (routedDeps modelId)).toBool = true)
    (hcanonical : (normalize
      (hashInput COMPILER_VERSION (skillParsed, routedDeps modelId))).toBool = true) :
    ∃ result, compile standardToolchain skillDefinition (routedDeps modelId) = .ok result := by
  have hrendered : (renderInstructions skillParsed.persona []
      ((sortedSkills (routedDeps modelId)).map ResolvedSkill.entry)).toBool = true := by
    show (renderInstructions skillParsed.persona []
      ((sortedSkills (skillDeps awkwardSkill)).map ResolvedSkill.entry)).toBool = true
    decide +kernel
  obtain ⟨_, hvalid⟩ := ok_of_toBool hvalid
  obtain ⟨instructions, hrendered⟩ := ok_of_toBool hrendered
  rw [← canonicalJson_toBool decimal] at hcanonical
  obtain ⟨text, hcanonical⟩ := ok_of_toBool hcanonical
  exact ⟨_, compile_ok.mpr ⟨skillParsed, instructions, text,
    ⟨rfl, hvalid, hrendered, hcanonical⟩, rfl⟩⟩

theorem literals_denote_iff_quotes :
    ∃ result, compile standardToolchain skillDefinition (routedDeps "\"a/b") = .ok result ∧
      Denotes standardToolchain skillDefinition (routedDeps "\"a/b") result := by
  obtain ⟨result, hok⟩ := routedAccepted "\"a/b" (by decide +kernel) (by decide +kernel)
  refine ⟨result, hok, ?_⟩
  rw [literals_denote_iff standardToolchain standardTexts rfl inheritedTexts_standard hok]
  exact Or.inr (by decide)

/-- The id `constructor` is accepted, and the source of `Object` stands where a numeral is to
stand. -/
theorem constructor_as_numeral :
    ∃ result, compile standardToolchain skillDefinition (routedDeps "constructor") = .ok result ∧
      ¬ Denotes standardToolchain skillDefinition (routedDeps "constructor") result := by
  obtain ⟨result, hok⟩ := routedAccepted "constructor" (by decide +kernel) (by decide +kernel)
  refine ⟨result, hok, ?_⟩
  intro hdenotes
  have hends : standardToolchain.templates.Ends := sourceTemplates_ends decimal standardTexts
  have htexts : InheritedTexts standardToolchain.templates.inherited := inheritedTexts_standard
  have hreads := (agent_reads_iff hends htexts (routedDeps "constructor").resolvedModel).mp
    (hdenotes.agent hok)
  rcases hreads with hanthropic | hown
  · exact absurd hanthropic (by decide)
  · exact absurd hown (by decide)

end InvisibleString.Compiler
