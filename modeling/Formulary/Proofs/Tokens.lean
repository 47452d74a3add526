import Formulary.Proofs.Cursor
import Formulary.Proofs.Spacing
import Formulary.Proofs.Spans

/-!
The tokens of a text as tiles of it. Between them and around them there are only blanks, and nobody can
tell from the tree how many.
-/

namespace Formulary

/-- Whether tokens stand one behind the other with only blanks outside, each as the only token of a slice
of the text. -/
structure Tiles (text : List Char) (tokens : List Token) : Prop where
  visible : ∀ token ∈ tokens, token.symbol ≠ .finish
  order : InOrder tokens
  covered : ∀ before c after, text = before ++ c :: after → Text.isBlank c = false →
    ∃ token ∈ tokens, token.span.start ≤ Text.size before ∧
      Text.size before + c.utf8Size ≤ token.span.stop
  alone : ∀ token ∈ tokens, ∃ before slice after, text = before ++ slice ++ after ∧
    token.span = ⟨Text.size before, Text.size (before ++ slice)⟩ ∧
    Token.ofText slice = .ok [⟨token.symbol, ⟨0, Text.size slice⟩⟩,
      ⟨.finish, ⟨Text.size slice, Text.size slice⟩⟩]

/-- Whether a text becomes another one when blanks are put between its tokens, now here and now there. -/
inductive Widens (text : List Char) : List Char → Prop
  | refl : Widens text text
  | more {front blanks back : List Char} {tokens : List Token} (earlier : Widens text (front ++ back))
      (scanned : Token.ofText (front ++ back) = .ok tokens)
      (between : ∀ token ∈ tokens,
        token.span.stop ≤ Text.size front ∨ Text.size front ≤ token.span.start)
      (white : Blank blanks) : Widens text (front ++ blanks ++ back)

namespace Tiled

variable {offset : Nat} {text : List Char} {token : Token} {tokens : List Token}

theorem covered (tiled : Tiled offset text tokens) {before after : List Char} {c : Char}
    (split : text = before ++ c :: after) (visible : Text.isBlank c = false) :
    ∃ token ∈ tokens, token.span.start ≤ offset + Text.size before ∧
      offset + Text.size before + c.utf8Size ≤ token.span.stop := by
  induction tiled generalizing before with
  | nil => simp at split
  | @blank offset d rest tokens white later ih =>
      cases before with
      | nil =>
          obtain ⟨rfl, _⟩ := List.cons.inj split
          rw [white] at visible
          cases visible
      | cons first more =>
          obtain ⟨rfl, behind⟩ := List.cons.inj split
          rw [Text.size_cons, ← Nat.add_assoc]
          exact ih behind
  | @token offset segment rest token tokens stands read later ih =>
      have behind {more : List Char} (lies : before = segment.text ++ more)
          (follows : rest = more ++ c :: after) : ∃ other ∈ token :: tokens,
            other.span.start ≤ offset + Text.size before ∧
              offset + Text.size before + c.utf8Size ≤ other.span.stop := by
        obtain ⟨other, within, bounds⟩ := ih follows
        rw [lies, Text.size_append, ← Nat.add_assoc]
        exact ⟨other, List.mem_cons_of_mem _ within, bounds⟩
      rcases List.append_eq_append_iff.1 split with ⟨more, lies, follows⟩ | ⟨more, holds, follows⟩
      · exact behind lies follows
      · cases more with
        | nil => exact @behind [] (by simpa using holds.symm) (by simpa using follows.symm)
        | cons d more =>
            obtain ⟨rfl, _⟩ := List.cons.inj follows
            refine ⟨token, List.mem_cons_self, ?_⟩
            rw [Segment.span_of_token? read, holds, Text.size_append, Text.size_cons]
            dsimp only
            omega

theorem exists_slice (tiled : Tiled offset text tokens) (inside : token ∈ tokens) :
    ∃ before slice after, text = before ++ slice ++ after ∧
      token.span = ⟨offset + Text.size before, offset + Text.size (before ++ slice)⟩ ∧
      Tiled (offset + Text.size before) slice [token] := by
  obtain ⟨first, second, rfl⟩ := List.append_of_mem inside
  obtain ⟨front, back, rfl, _, behind⟩ := tiled.exists_append
  obtain ⟨middle, rest, rfl, here, _⟩ := @exists_append _ _ [token] second behind
  obtain ⟨before, slice, after, rfl, _, _, tight, ⟨leading, starts, start⟩, last, ends,
    stop⟩ := here.exists_between (List.cons_ne_nil _ _)
  obtain rfl : token = leading := Option.some.inj starts
  obtain rfl : token = last := Option.some.inj ends
  rw [Nat.add_assoc, ← Text.size_append] at tight start stop
  have span : token.span = ⟨token.span.start, token.span.stop⟩ := rfl
  refine ⟨front ++ before, slice, after ++ rest, by simp, ?_, tight⟩
  rw [span, start, stop]
  simp only [Text.size_append, Nat.add_assoc]

end Tiled

theorem tiles_of_ofText {text : List Char} {tokens : List Token}
    (scanned : Token.ofText text = .ok tokens) :
    ∃ body, tokens = body ++ [⟨.finish, ⟨Text.size text, Text.size text⟩⟩] ∧ Tiles text body := by
  obtain ⟨body, tiled, rfl⟩ := ofText_eq_ok_iff.1 scanned
  obtain ⟨others, last, same, _, visible⟩ := ofText_eq_ok scanned
  obtain ⟨rfl, _⟩ := List.append_inj' same rfl
  refine ⟨body, rfl, visible, tiled.inOrder, ?_, ?_⟩
  · intro before c after split seen
    simpa using tiled.covered split seen
  · intro token inside
    obtain ⟨before, slice, after, split, span, alone⟩ := tiled.exists_slice inside
    rw [Nat.zero_add] at span alone
    refine ⟨before, slice, after, split, by simpa using span, ?_⟩
    have rebased := ofText_eq_ok_iff.2 ⟨_, @Tiled.rebase 0 slice [token] (Text.size before) alone, rfl⟩
    simpa [Token.rebase, Span.rebase, span] using rebased

theorem Widens.exists_tokens {text wider : List Char} {tokens : List Token}
    (widens : Widens text wider) (scanned : Token.ofText text = .ok tokens) :
    ∃ wide, Token.ofText wider = .ok wide ∧ wide.map Token.symbol = tokens.map Token.symbol := by
  induction widens with
  | refl => exact ⟨tokens, scanned, rfl⟩
  | @more front blanks back narrow earlier found between white ih =>
      obtain ⟨wide, found', same⟩ := ih
      cases found.symm.trans found'
      cases blanks with
      | nil =>
          rw [List.append_nil]
          exact ⟨narrow, found, same⟩
      | cons c more =>
          obtain ⟨body, tiled, rfl⟩ := ofText_eq_ok_iff.1 found
          obtain ⟨first, second, rfl, before, behind⟩ := tiled.exists_cut fun token inside => by
            simpa using between token (List.mem_append_left _ inside)
          rw [Nat.zero_add] at behind
          obtain ⟨moved, tiled', symbols⟩ := behind.elsewhere (Text.size front + Text.size (c :: more))
          have wide : Tiled (0 + Text.size front) (c :: (more ++ back)) moved := by
            rw [Nat.zero_add]
            exact Tiled.of_blank white tiled'
          have spaced : Tiled 0 (front ++ (c :: more) ++ back) (first ++ moved) := by
            rw [List.append_assoc]
            exact before.append_blank (List.forall_mem_cons.1 white).1 wide
          refine ⟨_, ofText_eq_ok_iff.2 ⟨_, spaced, rfl⟩, ?_⟩
          rw [← same]
          simp [symbols]

theorem parseUnplaced_eq {text : List Char} {tokens : List Token} (scanned : Token.ofText text = .ok tokens) :
    Expression.parseUnplaced (String.ofList text) =
      (Expression.ofTokens ((tokens.map Token.symbol).map (⟨·, ⟨0, 0⟩⟩))).mapError .arithmetic := by
  rw [List.map_map, ← show Token.unplaced = (⟨·, ⟨0, 0⟩⟩) ∘ Token.symbol from rfl, ofTokens_unplaced]
  unfold Expression.parseUnplaced Expression.parse
  rw [String.toList_ofList, scanned]
  dsimp only
  cases Expression.ofTokens tokens <;> rfl

/-- The scanner comes to an end and takes no slice that is none. The tokens tile the text, and blanks
between them make no other tree and no other fault. -/
theorem tokens_tile (text : List Char) :
    (∀ outcome, Cursor.Leads text .start outcome ↔ outcome = some (Token.ofText text)) ∧
      ∀ tokens, Token.ofText text = .ok tokens →
        (∃ body, tokens = body ++ [⟨.finish, ⟨Text.size text, Text.size text⟩⟩] ∧ Tiles text body) ∧
        ∀ wider, Widens text wider →
          (∃ wide, Token.ofText wider = .ok wide ∧
            wide.map Token.symbol = tokens.map Token.symbol) ∧
          Expression.parseUnplaced (String.ofList wider) =
            Expression.parseUnplaced (String.ofList text) := by
  refine ⟨fun _ => Cursor.leads_iff, fun tokens scanned => ⟨tiles_of_ofText scanned, ?_⟩⟩
  intro wider widens
  obtain ⟨wide, also, same⟩ := widens.exists_tokens scanned
  refine ⟨⟨wide, also, same⟩, ?_⟩
  rw [parseUnplaced_eq also, parseUnplaced_eq scanned, same]

theorem tokens_tile_accented :
    (∃ tokens, Token.ofText ("2e-1".toList ++ "*\x7bid:1,name:\"é\"\x7d ".toList) = .ok tokens ∧
      tokens.map Token.span = [⟨0, 4⟩, ⟨4, 5⟩, ⟨5, 21⟩, ⟨22, 22⟩]) ∧
    Expression.parseUnplaced (String.ofList
        ("2e-1".toList ++ " \t".toList ++ "*\x7bid:1,name:\"é\"\x7d ".toList)) =
      Expression.parseUnplaced (String.ofList ("2e-1".toList ++ "*\x7bid:1,name:\"é\"\x7d ".toList)) := by
  have computed : (Token.ofText ("2e-1".toList ++ "*\x7bid:1,name:\"é\"\x7d ".toList)).toOption.map
      (·.map Token.span) = some [⟨0, 4⟩, ⟨4, 5⟩, ⟨5, 21⟩, ⟨22, 22⟩] := by
    decide +kernel
  obtain ⟨tokens, read, spans⟩ := Option.map_eq_some_iff.1 computed
  have scanned := toOption_eq_some.1 read
  refine ⟨⟨tokens, scanned, spans⟩, ?_⟩
  have between : ∀ span ∈ tokens.map Token.span,
      span.stop ≤ Text.size "2e-1".toList ∨ Text.size "2e-1".toList ≤ span.start := by
    rw [spans]
    decide +kernel
  have white : Blank " \t".toList := by
    intro c inside
    obtain rfl | rfl : c = ' ' ∨ c = '\t' := by simpa using inside
    all_goals rfl
  have widens := Widens.refl.more scanned (fun token inside => between _ (List.mem_map_of_mem inside))
    white
  exact ((tokens_tile _).2 tokens scanned).2 _ widens |>.2

end Formulary
