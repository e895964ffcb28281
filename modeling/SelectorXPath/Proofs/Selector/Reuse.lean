import SelectorXPath.Proofs.Selector.Faults
import SelectorXPath.Proofs.Selector.LeftOpen
import SelectorXPath.Proofs.Selector.Limit

/-! A reader that is used again. It stands behind the tokens that the attempts before have read, and
its depth is the number of groups that are open there: an attempt that fails inside of groups does
not leave them. So the next attempt may nest by as much less. A new reader over the tokens that are
left would come to the same, unless a group stands too deep with those that are still counted; and
it is the same reader where no group has been left open. -/

namespace SelectorXPath

open SelectorXPath.Grammar SelectorXPath.Enclosure

namespace TokenReader

variable {first r : TokenReader} {read : List Token}

/-- The reader behind some attempts to read a list, whether they succeed or fail. -/
def attempted (r : TokenReader) : Nat → TokenReader
  | 0 => r
  | n + 1 => (r.attempted n).next.2

/-- A new reader with the same limit, over the tokens that are left. -/
def renewed (r : TokenReader) : TokenReader :=
  start r.setting.limit (r.tokens ++ [⟨.eof, [], r.setting.stop⟩])

/-- A new reader over what is left differs from the old one in its count of groups only. -/
theorem renewed_eq (h : Scanned r.tokens) : r.renewed = { r with depth := 0 } := by
  have hVisible : Mode.uncommented r.tokens = r.tokens :=
    List.filter_eq_self.mpr fun t ht => by simp [h.visible t ht]
  rw [renewed, start_append_eof, hVisible]

/-- The reader has read some of the tokens, and counts the groups that are open behind them. -/
structure Behind (first : TokenReader) (read : List Token) (r : TokenReader) : Prop where
  tokens_eq : first.tokens = read ++ r.tokens
  setting_eq : r.setting = first.setting
  depth_eq : r.depth = (outside.behind read).groups
  depth_le : r.depth ≤ r.setting.limit

/-- A reader that has read nothing counts nothing. -/
theorem behind_start (limit : Nat) (tokens : List Token) :
    Behind (start limit tokens) [] (start limit tokens) :=
  ⟨rfl, rfl, rfl, Nat.zero_le _⟩

/-- A list that is read closes all the groups that it opens. -/
theorem level_of_outcome {list : SelectorList} {rest : List Token} (hScanned : Scanned r.tokens)
    (h : r.outcome = .ok list rest) : ∃ ts, r.tokens = ts ++ rest ∧ Level ts := by
  obtain ⟨-, ts, hTokens, hWritten⟩ := Parser.list_sound (Parser.groups_reads _ _) h
  have hPart : Scanned ts := hScanned.part ⟨[], rest, by rw [hTokens]; rfl⟩
  have hSettled := (settled_of_writesGroup _).alternatives
    (fun _ hComma => settled_of_separator hComma) hPart hWritten
  exact ⟨ts, hTokens, hSettled.level⟩

/-- One more attempt. -/
theorem Behind.next (h : Behind first read r) (hTokens : Continued first.tokens) :
    ∃ more, Behind first (read ++ more) r.next.2 := by
  have hLeft : Continued r.tokens := hTokens.part ⟨read, [], by rw [h.tokens_eq, List.append_nil]⟩
  unfold TokenReader.next
  split
  · rename_i list rest hRead
    obtain ⟨ts, hSplit, hLevel⟩ := level_of_outcome hLeft.scanned hRead
    refine ⟨ts, ?_, h.setting_eq, ?_, h.depth_le⟩
    · rw [h.tokens_eq, hSplit, List.append_assoc]
    · rw [behind_append, hLevel, ← h.depth_eq]
  · rename_i fault count rest hError
    have hOpen := outcome_leavesOpen hLeft
    have hFails := outcome_failsIn r
    rw [hError] at hOpen hFails
    obtain ⟨ts, hSplit, hCount⟩ := hOpen
    refine ⟨ts, ?_, h.setting_eq, ?_, ?_⟩
    · rw [h.tokens_eq, hSplit, List.append_assoc]
    · rw [behind_append, hCount, ← h.depth_eq]
    · have hAllowed := hFails.2
      have hDepth := h.depth_le
      show r.depth + count ≤ r.setting.limit
      omega

/-- All the attempts. -/
theorem Behind.attempted (h : Behind first read r) (hTokens : Continued first.tokens) (n : Nat) :
    ∃ more, Behind first (read ++ more) (r.attempted n) := by
  induction n with
  | zero =>
      refine ⟨[], ?_⟩
      rw [List.append_nil]
      exact h
  | succ n ih =>
      obtain ⟨more, hMore⟩ := ih
      obtain ⟨last, hLast⟩ := hMore.next hTokens
      rw [List.append_assoc] at hLast
      exact ⟨more ++ last, hLast⟩

/-- A reader and a new one, inside of as many groups as the first one counts. -/
theorem next_eq_or_tooDeep (hScanned : Scanned r.tokens) (hDepth : r.depth ≤ r.setting.limit)
    {around : Enclosure} (hAround : around.groups = r.depth) :
    r.next.1 = r.renewed.next.1 ∨ ∃ t, firstDeep? r.setting.limit around r.tokens = some t ∧
      r.next.1 = .error ⟨t.offset, .nesting r.setting.limit⟩ := by
  have hSides : Parser.SideBySide r.setting.limit (r.setting.limit - r.depth)
      (writesGroup (r.setting.limit - r.depth)) r.setting r.setting
      (Parser.groups r.setting (r.setting.limit - r.depth))
      (Parser.groups r.setting (r.setting.limit - 0)) :=
    ⟨rfl, Parser.groups_reads _ _, settled_of_writesGroup _,
      Parser.groups_limited rfl (Nat.sub_le_sub_left (Nat.zero_le _) _)⟩
  have hRead : Outcome.Limited r.setting.limit (r.setting.limit - r.depth) r.tokens r.outcome
      (outcome { r with depth := 0 }) := Parser.list_limited hSides hScanned
  rw [renewed_eq hScanned, next_eq_result, next_eq_result]
  rcases hRead around (by omega) with hSame | ⟨t, count, rest, hDeep, hError⟩
  · exact Or.inl (by rw [hSame])
  · exact Or.inr ⟨t, hDeep, by rw [hError]; rfl⟩

/-- The next attempt of a reader that has been used, and the first one of a new reader over the
tokens that are left. The one counts the groups that attempts before it have left open, so it fails
at the first group that stands too deep inside of these; otherwise both come to the same. Both read
the same lists, as far as these leave room for the groups that are counted. Where no group has been
left open, the reader is as good as new. -/
theorem next_of_attempted {source : SelectorXPath.Text} {tokens : List Token}
    (h : tokenize source = .ok tokens) (limit n : Nat) :
    ∃ read r, (start limit tokens).attempted n = r ∧ visible tokens = read ++ r.tokens ∧
      r.depth = (outside.behind read).groups ∧ r.depth ≤ limit ∧
      (r.next.1 = r.renewed.next.1 ∨ ∃ t,
        firstDeep? limit (outside.behind read) r.tokens = some t ∧
          r.next.1 = .error ⟨t.offset, .nesting limit⟩) ∧
      (∀ list, r.next.1 = .ok list ↔
        r.renewed.next.1 = .ok list ∧ listNesting list + r.depth ≤ limit) ∧
      (r.depth = 0 → r.renewed = r) := by
  have hTokens := continued_of_tokenize h
  obtain ⟨read, hBehind⟩ := (behind_start limit tokens).attempted hTokens n
  rw [List.nil_append] at hBehind
  generalize (start limit tokens).attempted n = r at hBehind ⊢
  obtain ⟨hSplit, hSetting, hDepth, hWithin⟩ := hBehind
  have hSplit' : visible tokens = read ++ r.tokens := hSplit
  have hLimit : r.setting.limit = limit := congrArg Setting.limit hSetting
  have hScanned : Scanned r.tokens :=
    hTokens.scanned.part ⟨read, [], by rw [hSplit', List.append_nil]⟩
  have hBoth := next_eq_or_tooDeep hScanned hWithin hDepth.symm
  rw [hLimit] at hBoth hWithin
  refine ⟨read, r, rfl, hSplit', hDepth, hWithin, hBoth, fun list => ?_, fun hZero => ?_⟩
  · have hRenewed : (TokenReader.next { r with depth := 0 }).1 = .ok list ↔
        WritesList r.tokens list ∧ listNesting list ≤ r.setting.limit := next_eq_ok_iff hScanned
    rw [renewed_eq hScanned, hRenewed, next_eq_ok_iff hScanned, hLimit]
    constructor
    · rintro ⟨hWritten, hNesting⟩
      exact ⟨⟨hWritten, by omega⟩, by omega⟩
    · rintro ⟨⟨hWritten, -⟩, hNesting⟩
      exact ⟨hWritten, by omega⟩
  · rw [renewed_eq hScanned, ← hZero]

/-- The second attempt stands inside of the group that the first one has failed in. -/
theorem next_of_attempted_of_group :
    (tokenize ":not([b]a:not(c))".toList).isOk = true ∧
      ∃ tokens read r, tokenize ":not([b]a:not(c))".toList = .ok tokens ∧
        (start 1 tokens).attempted 1 = r ∧ visible tokens = read ++ r.tokens ∧
        r.depth = (outside.behind read).groups ∧
        (r.next.1 = r.renewed.next.1 ∨ ∃ t,
          firstDeep? 1 (outside.behind read) r.tokens = some t ∧
            r.next.1 = .error ⟨t.offset, .nesting 1⟩) := by
  have hOk : (tokenize ":not([b]a:not(c))".toList).isOk = true := by decide +kernel
  obtain ⟨tokens, hTokens⟩ := exists_ok_of_isOk hOk
  obtain ⟨read, r, hReader, hSplit, hDepth, -, hBoth, -⟩ := next_of_attempted hTokens 1 1
  exact ⟨hOk, tokens, read, r, hTokens, hReader, hSplit, hDepth, hBoth⟩

/-- There the new reader gets to the parenthesis that it does not know of, and the old one fails at
the group in front of it: a failed attempt does not leave the depth as it was. -/
theorem not_next_renewed_of_group :
    ¬ ∀ (source : SelectorXPath.Text) (tokens : List Token) (limit n : Nat),
      tokenize source = .ok tokens →
        ((start limit tokens).attempted n).next.1 =
          ((start limit tokens).attempted n).renewed.next.1 := by
  intro hSame
  have hRun : (tokenize ":not([b]a:not(c))".toList).map (fun tokens =>
      (((start 1 tokens).attempted 1).next.1.map fun _ => (),
        ((start 1 tokens).attempted 1).renewed.next.1.map fun _ => ())) =
      .ok (.error ⟨9, .nesting 1⟩, .error ⟨16, .endOfInput⟩) := by decide +kernel
  obtain ⟨tokens, hTokens⟩ : ∃ tokens, tokenize ":not([b]a:not(c))".toList = .ok tokens :=
    exists_ok_of_isOk (by decide +kernel)
  have hEqual := hSame _ _ 1 1 hTokens
  rw [hTokens] at hRun
  obtain ⟨hFirst, hSecond⟩ := Prod.mk.inj (Except.ok.inj hRun)
  rw [hEqual, hSecond] at hFirst
  cases hFirst

end TokenReader

end SelectorXPath
