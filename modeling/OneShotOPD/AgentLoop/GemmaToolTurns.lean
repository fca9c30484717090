import OneShotOPD.AgentLoop.ToolAgentLoop
import Mathlib.Data.List.Count

/-!
# Tool turns of Gemma4

The responses of a tool turn are formatted by hand, and every response opens with
a marker of its own.  Continuous tokens put another marker before them, because
the stream that they continue does not end in one.
-/

namespace OneShotOPD.AgentLoop

open Checks ContinuousToken

/-- The tokenizer keeps a marker apart from the text around it. -/
structure EncodesMarker (tokenizer : Tokenizer) (marker : String) (markerId : ℕ) : Prop where
  encode_empty : tokenizer.encode "" = []
  encode_marker : ∀ before after, tokenizer.encode (before ++ marker ++ after) =
    tokenizer.encode before ++ markerId :: tokenizer.encode after

/-- The marker that a formatted response opens with. -/
def toolResponseMarker : String := "<|tool_response>"

def OpensWith (marker text : String) : Prop := ∃ body, text = marker ++ body

theorem OpensWith.append {marker text : String} (hopens : OpensWith marker text) (more : String) :
    OpensWith marker (text ++ more) := by
  obtain ⟨body, rfl⟩ := hopens
  exact ⟨body ++ more, String.append_assoc ..⟩

theorem opensWith_gemma4FormatToolResponse (toolMessage : Message) (toolName : String) :
    OpensWith toolResponseMarker (gemma4FormatToolResponse toolMessage toolName) := by
  have hopening : OpensWith toolResponseMarker "<|tool_response>response:" :=
    ⟨"response:", by decide⟩
  unfold gemma4FormatToolResponse
  repeat refine OpensWith.append ?_ _
  exact hopening

/-- Texts that open with the marker have it at least once each. -/
theorem le_count_encode {tokenizer : Tokenizer} {marker : String} {markerId : ℕ}
    (hencodes : EncodesMarker tokenizer marker markerId) {texts : List String}
    (htexts : ∀ text ∈ texts, OpensWith marker text) (before : String) :
    texts.length ≤ (tokenizer.encode (before ++ String.join texts)).count markerId := by
  induction texts generalizing before with
  | nil => simp
  | cons text texts ih =>
      obtain ⟨body, rfl⟩ := htexts _ List.mem_cons_self
      have hrest := ih (fun text htext => htexts text (List.mem_cons_of_mem _ htext)) body
      have hsplit : before ++ String.join ((marker ++ body) :: texts) =
          before ++ marker ++ (body ++ String.join texts) := by
        rw [String.join_cons]
        simp only [String.append_assoc]
      rw [hsplit, hencodes.encode_marker, List.count_append, List.count_cons_self,
        List.length_cons]
      omega

/-- Tool messages form one group. -/
theorem iterAppendGroups_tools {toolMessages : List Message} (hne : toolMessages ≠ [])
    (hrole : ∀ message ∈ toolMessages, message.role = "tool") :
    iterAppendGroups toolMessages = [toolMessages] := by
  induction toolMessages with
  | nil => exact absurd rfl hne
  | cons message toolMessages ih =>
      cases toolMessages with
      | nil => rfl
      | cons next toolMessages =>
          have hrest := ih (List.cons_ne_nil _ _) fun other hother =>
            hrole other (List.mem_cons_of_mem _ hother)
          have hfirst := hrole message List.mem_cons_self
          have hsecond := hrole next (List.mem_cons_of_mem _ List.mem_cons_self)
          rw [iterAppendGroups, List.foldr_cons, ← iterAppendGroups, hrest]
          simp [hfirst, hsecond]

section Turn

variable {config : LoopConfig} {markerId : ℕ} {allowedAppendRoles : List String}
  {previousMessages toolMessages : List Message}

/-- The tokens of the appended tool messages. -/
theorem tokenize_tools {tokens : List ℕ} (hne : toolMessages ≠ [])
    (hrole : ∀ message ∈ toolMessages, message.role = "tool") :
    (Builder.gemma4 markerId).tokenizeNonAssistantIncrementalMessages config.tokenizer
        allowedAppendRoles previousMessages (previousMessages ++ toolMessages) = .ok tokens ↔
      (∀ message ∈ toolMessages, message.role ∈ allowedAppendRoles) ∧
        formatToolGroup gemma4FormatToolResponse config.tokenizer toolMessages previousMessages =
          .ok tokens := by
  have hlast : ∃ lastMessage, (previousMessages ++ toolMessages).getLast? = some lastMessage ∧
      lastMessage.role = "tool" := by
    refine ⟨toolMessages.getLast hne, ?_, hrole _ (List.getLast_mem hne)⟩
    rw [List.getLast?_append, List.getLast?_eq_some_getLast hne, Option.some_or]
  obtain ⟨lastMessage, hlast, hlastRole⟩ := hlast
  obtain ⟨message, rest, rfl⟩ := List.exists_cons_of_ne_nil hne
  have hgroup : (Builder.gemma4 markerId).tokenizeGroup config.tokenizer previousMessages
      (message :: rest) =
        formatToolGroup gemma4FormatToolResponse config.tokenizer (message :: rest)
          previousMessages := by
    rw [Builder.tokenizeGroup, if_pos (hrole message List.mem_cons_self)]
    rfl
  have hprompt : (Builder.gemma4 markerId).tokenizeGenerationPromptDelta config.tokenizer
      (previousMessages ++ message :: rest) = .ok [] := by
    simp [Builder.tokenizeGenerationPromptDelta, hlast, hlastRole]
  rw [Builder.tokenizeNonAssistantIncrementalMessages, assertAppendOnly]
  simp only [List.drop_left, List.take_left, iterAppendGroups_tools hne hrole, hprompt,
    List.mapM_cons, List.mapM_nil, hgroup, if_neg hne]
  constructor
  · intro hok
    obtain ⟨⟨⟩, hchecks, hok⟩ := bind_eq_ok.mp hok
    obtain ⟨groups, hgroups, hok⟩ := bind_eq_ok.mp hok
    obtain ⟨found, hfound, hgroups⟩ := bind_eq_ok.mp hgroups
    cases hgroups
    cases hok
    refine ⟨fun other hother => ?_, by simpa using hfound⟩
    simp only [raiseIf_bind_eq_ok, raiseIfAny_eq_ok, not_not] at hchecks
    exact hchecks.2.2 other hother
  · rintro ⟨hallowed, hformat⟩
    refine bind_eq_ok.mpr ⟨(), ?_, ?_⟩
    · simp only [raiseIf_bind_eq_ok, raiseIfAny_eq_ok, not_not]
      exact ⟨by simp, trivial, hallowed⟩
    · rw [hformat]
      simp [bind, Except.bind, pure, Except.pure]

/-- The merge of the tool messages, if it succeeds. -/
theorem merge_tools {builder : Builder}
    (hbuilder : ModelFamily.gemma4.createBuilder config.tokenizer = .ok builder)
    (hmarker : config.tokenizer.convertTokensToIds toolResponseMarker = some markerId)
    (hne : toolMessages ≠ []) (hrole : ∀ message ∈ toolMessages, message.role = "tool")
    {runtimeTokenIds : List ℕ} (hruntime : runtimeTokenIds.getLast? ≠ some markerId)
    {merged : MergeResult} :
    builder.mergeNonAssistantTokens config.tokenizer allowedAppendRoles previousMessages
        (previousMessages ++ toolMessages) runtimeTokenIds = .ok merged ↔
      (∀ message ∈ toolMessages, message.role ∈ allowedAppendRoles) ∧
        ∃ tokens, formatToolGroup gemma4FormatToolResponse config.tokenizer toolMessages
          previousMessages = .ok tokens ∧
          merged = ⟨runtimeTokenIds ++ [markerId] ++ tokens, tokens.length, .nonAssistant,
            [markerId], 0⟩ := by
  have hgemma : builder = .gemma4 markerId := by
    unfold toolResponseMarker at hmarker
    simp only [ModelFamily.createBuilder, requireTokenId, hmarker] at hbuilder
    exact (Except.ok.inj hbuilder).symm
  subst hgemma
  rw [Builder.mergeNonAssistantTokens, bind_eq_ok]
  simp only [tokenize_tools hne hrole, List.drop_left, Builder.mergeNonAssistantTokenIds,
    gemma4MergeNonAssistantTokens, mergeInserting, hne, hruntime, ne_eq, not_false_eq_true,
    and_self, decide_true, if_true]
  constructor
  · rintro ⟨tokens, ⟨hallowed, hformat⟩, hmerged⟩
    exact ⟨hallowed, tokens, hformat, (Except.ok.inj hmerged).symm⟩
  · rintro ⟨hallowed, tokens, hformat, rfl⟩
    exact ⟨tokens, ⟨hallowed, hformat⟩, rfl⟩

/-- The formatted responses have the marker at least once each. -/
theorem le_count_formatToolGroup
    (hencodes : EncodesMarker config.tokenizer toolResponseMarker markerId) {tokens : List ℕ}
    (hformat : formatToolGroup gemma4FormatToolResponse config.tokenizer toolMessages
      previousMessages = .ok tokens) : toolMessages.length ≤ tokens.count markerId := by
  obtain ⟨texts, htexts, hencode⟩ := bind_eq_ok.mp hformat
  obtain rfl := Except.ok.inj hencode
  have hlength : texts.length = toolMessages.length := by
    rw [length_of_mapM htexts, List.length_zipIdx]
  have hopens : ∀ text ∈ texts, OpensWith toolResponseMarker text := by
    intro text htext
    obtain ⟨entry, -, hentry⟩ := exists_of_mem_mapM htexts htext
    obtain ⟨name, -, hname⟩ := bind_eq_ok.mp hentry
    cases hname
    exact opensWith_gemma4FormatToolResponse _ _
  have hcount := le_count_encode hencodes hopens ""
  rwa [String.empty_append, hlength] at hcount

/-- The two paths agree only on a turn without tool messages.  The stream ends in the token that
closes a tool call, which is not the marker. -/
theorem gemma4_merge_eq_legacy_iff {builder : Builder} {names : List String} {closeId : ℕ}
    (hformat : config.toolFormat = .gemma4)
    (hbuilder : ModelFamily.gemma4.createBuilder config.tokenizer = .ok builder)
    (hmarker : config.tokenizer.convertTokensToIds toolResponseMarker = some markerId)
    (hencodes : EncodesMarker config.tokenizer toolResponseMarker markerId)
    (hdistinct : closeId ≠ markerId)
    (hrole : ∀ message ∈ toolMessages, message.role = "tool")
    (hnames : names.length = toolMessages.length) {runtimeTokenIds : List ℕ}
    (hruntime : runtimeTokenIds.getLast? = some closeId) :
    (∃ merged responseIds,
      builder.mergeNonAssistantTokens config.tokenizer allowedAppendRoles previousMessages
        (previousMessages ++ toolMessages) runtimeTokenIds = .ok merged ∧
      legacyToolTokens config toolMessages names false = .ok responseIds ∧
      merged.tokenIds = runtimeTokenIds ++ responseIds ∧
      (merged.tokenIds.drop runtimeTokenIds.length).count markerId = toolMessages.length) ↔
    toolMessages = [] := by
  have hlast : runtimeTokenIds.getLast? ≠ some markerId := by
    rw [hruntime]
    exact fun heq => hdistinct (Option.some.inj heq)
  constructor
  · rintro ⟨merged, responseIds, hmerged, -, -, hcount⟩
    by_contra hne
    obtain ⟨-, tokens, hgroup, rfl⟩ := (merge_tools hbuilder hmarker hne hrole hlast).mp hmerged
    have hle := le_count_formatToolGroup hencodes hgroup
    rw [List.append_assoc, List.drop_left, List.singleton_append, List.count_cons_self] at hcount
    omega
  · rintro rfl
    obtain rfl := List.length_eq_zero_iff.mp hnames
    have hgemma : ∃ toolResponseId, builder = .gemma4 toolResponseId := by
      obtain ⟨toolResponseId, -, hgemma⟩ := bind_eq_ok.mp hbuilder
      exact ⟨toolResponseId, (Except.ok.inj hgemma).symm⟩
    obtain ⟨toolResponseId, rfl⟩ := hgemma
    refine ⟨⟨runtimeTokenIds, 0, .nonAssistant, [], 0⟩, [], ?_, ?_, ?_, ?_⟩
    · simp [Builder.mergeNonAssistantTokens, Builder.tokenizeNonAssistantIncrementalMessages,
        assertAppendOnly, raiseIf, raiseIfAny, Builder.mergeNonAssistantTokenIds,
        gemma4MergeNonAssistantTokens, mergeInserting, bind, Except.bind, pure, Except.pure]
    · rw [legacyToolTokens, hformat]
      exact congrArg Except.ok hencodes.encode_empty
    · rw [List.append_nil]
    · rw [List.drop_length, List.count_nil, List.length_nil]

end Turn

/-! ## One response -/

/-- A tokenizer with a token for the marker and one for every other character.  The first
argument counts the characters of a marker that are still to be skipped. -/
def encodeFrom (marker : List Char) (markerId : ℕ) : ℕ → List Char → List ℕ
  | _, [] => []
  | skipped + 1, _ :: text => encodeFrom marker markerId skipped text
  | 0, char :: text =>
      if marker <+: char :: text then
        markerId :: encodeFrom marker markerId (marker.length - 1) text
      else char.toNat :: encodeFrom marker markerId 0 text

theorem encodeFrom_skip (marker : List Char) (markerId : ℕ) (skipped text : List Char) :
    encodeFrom marker markerId skipped.length (skipped ++ text) =
      encodeFrom marker markerId 0 text := by
  induction skipped with
  | nil => rfl
  | cons char skipped ih => exact ih

/-- A marker whose first character does not come again does not overlap itself. -/
theorem prefix_append_iff {first : Char} {rest before after : List Char} (hfirst : first ∉ rest)
    (hbefore : before ≠ []) :
    first :: rest <+: before ++ (first :: rest) ++ after ↔ first :: rest <+: before := by
  constructor
  · intro hprefix
    have hself : before <+: before ++ (first :: rest) ++ after := by
      rw [List.append_assoc]
      exact List.prefix_append _ _
    rcases List.prefix_or_prefix_of_prefix hprefix hself with hwithin | hover
    · exact hwithin
    obtain ⟨tail, htail⟩ := hover
    cases tail with
    | nil =>
        rw [List.append_nil] at htail
        exact htail ▸ List.prefix_rfl
    | cons next tail =>
        -- the marker would start again inside itself
        have hnext : next = first := by
          have hshift : before ++ next :: tail <+: before ++ ((first :: rest) ++ after) := by
            rwa [htail, ← List.append_assoc]
          exact (List.cons_prefix_cons.mp ((List.prefix_append_right_inj before).mp hshift)).1
        obtain ⟨char, before, rfl⟩ := List.exists_cons_of_ne_nil hbefore
        have hrest : before ++ next :: tail = rest := (List.cons.inj htail).2
        exact absurd (hrest ▸ List.mem_append_right before (hnext ▸ List.mem_cons_self)) hfirst
  · intro hprefix
    rw [List.append_assoc]
    exact hprefix.trans (List.prefix_append _ _)

theorem encodeFrom_marker {first : Char} {rest : List Char} (hfirst : first ∉ rest) (markerId : ℕ)
    (after : List Char) : ∀ (before : List Char) (skipped : ℕ), skipped ≤ before.length →
      encodeFrom (first :: rest) markerId skipped (before ++ (first :: rest) ++ after) =
        encodeFrom (first :: rest) markerId skipped before ++
          markerId :: encodeFrom (first :: rest) markerId 0 after := by
  intro before
  induction before with
  | nil =>
      intro skipped hskipped
      obtain rfl := Nat.le_zero.mp hskipped
      have hprefix : first :: rest <+: first :: (rest ++ after) := ⟨after, rfl⟩
      simp only [List.nil_append, List.cons_append, encodeFrom, if_pos hprefix]
      rw [List.length_cons, Nat.add_sub_cancel, encodeFrom_skip]
  | cons char before ih =>
      intro skipped hskipped
      cases skipped with
      | succ skipped => exact ih skipped (Nat.le_of_succ_le_succ hskipped)
      | zero =>
          have hoverlap : first :: rest <+: char :: (before ++ (first :: rest) ++ after) ↔
              first :: rest <+: char :: before :=
            prefix_append_iff hfirst (List.cons_ne_nil _ _)
          simp only [List.cons_append, encodeFrom, hoverlap]
          split
          · next hprefix =>
              have hlength := hprefix.length_le
              rw [ih _ (by simpa using hlength)]
              rfl
          · rw [ih 0 (Nat.zero_le _)]
            rfl

/-- The marker and the token that closes a tool call have the ids 256 and 257. -/
def markerTokenizer : Tokenizer where
  applyChatTemplate _ _ := .ok []
  encode text := encodeFrom toolResponseMarker.toList 256 0 text.toList
  convertTokensToIds token :=
    if token = toolResponseMarker then some 256
    else if token = "<tool_call|>" then some 257 else none
  encodeMessages _ _ := .ok []

def markerConfig : LoopConfig where
  maxUserTurns := 0
  maxAssistantTurns := 0
  maxParallelCalls := 1
  promptLength := 1024
  hasImageProcessor := false
  continuousToken := none
  toolFormat := .gemma4
  tokenizer := markerTokenizer
  systemPrompt := []
  turnSeparator := []
  decodesArguments _ := true

theorem markerTokenizer_encodesMarker : EncodesMarker markerTokenizer toolResponseMarker 256 where
  encode_empty := rfl
  encode_marker before after := by
    have hmarker : toolResponseMarker.toList = '<' :: "|tool_response>".toList := by decide
    simp only [markerTokenizer, String.toList_append, hmarker]
    exact encodeFrom_marker (by decide) 256 after.toList before.toList 0 (Nat.zero_le _)

def weatherCall : Message :=
  { plainMessage "assistant" "" with toolCalls := [⟨none, some "weather"⟩] }

/-- A single response gets a second marker. -/
theorem gemma4_single_response :
    ∃ merged responseIds,
      (Builder.gemma4 256).mergeNonAssistantTokens markerTokenizer ["tool"] [weatherCall]
        [weatherCall, plainMessage "tool" "sunny"] [257] = .ok merged ∧
      legacyToolTokens markerConfig [plainMessage "tool" "sunny"] ["weather"] false =
        .ok responseIds ∧
      merged.tokenIds ≠ [257] ++ responseIds ∧ merged.tokenIds.count 256 = 2 := by
  refine ⟨_, _, rfl, rfl, ?_, ?_⟩
  · decide
  · decide

/-- The paths disagree on it. -/
theorem gemma4_single_response_disagrees :
    ¬ ∃ merged responseIds,
      (Builder.gemma4 256).mergeNonAssistantTokens markerTokenizer ["tool"] [weatherCall]
        ([weatherCall] ++ [plainMessage "tool" "sunny"]) [257] = .ok merged ∧
      legacyToolTokens markerConfig [plainMessage "tool" "sunny"] ["weather"] false =
        .ok responseIds ∧
      merged.tokenIds = [257] ++ responseIds ∧ (merged.tokenIds.drop 1).count 256 = 1 := by
  have hbuilder : ModelFamily.gemma4.createBuilder markerConfig.tokenizer =
      .ok (.gemma4 256) := by
    simp [ModelFamily.createBuilder, requireTokenId, markerConfig, markerTokenizer,
      toolResponseMarker, bind, Except.bind, pure, Except.pure]
  intro hagree
  have hnil := (@gemma4_merge_eq_legacy_iff markerConfig 256 ["tool"] [weatherCall]
    [plainMessage "tool" "sunny"] (.gemma4 256) ["weather"] 257 rfl hbuilder (by decide)
    markerTokenizer_encodesMarker (by decide) (by simp [plainMessage]) rfl [257] rfl).mp hagree
  exact List.cons_ne_nil _ _ hnil

end OneShotOPD.AgentLoop
