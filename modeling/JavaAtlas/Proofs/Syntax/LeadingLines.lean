import JavaAtlas.Proofs.Syntax.Comments
import JavaAtlas.Proofs.Syntax.Front

/-!
# Sources behind empty lines

Line feeds in front of a source are part of the gap before its first token. All tokens stand as many lines further down,
and nothing else about them is changed.
-/

namespace JavaAtlas.Syntax

def Token.moved (count : Nat) (token : Token) : Token :=
  { token with line := token.line + count }

/-- The first token of a source that opens with line feeds. -/
def Token.movedFirst (count : Nat) (token : Token) : Token :=
  { token with gap := List.replicate count '\n' ++ token.gap, line := token.line + count }

def movedTokens (count : Nat) : List Token → List Token
  | [] => []
  | first :: rest => first.movedFirst count :: rest.map (Token.moved count)

variable {source : List Char}

theorem scanFrom_moved (count line : Nat) (embeddings : List Embedding) (source : List Char) :
    scanFrom (line + count) embeddings source = (scanFrom line embeddings source).map (List.map (Token.moved count)) := by
  induction hlength : source.length using Nat.strongRecOn generalizing line embeddings source with
  | ind length ih =>
    rw [scanFrom_eq, scanFrom_eq line]
    cases hgap : gapLength .outside source with
    | none => rfl
    | some gap =>
      simp only [Option.bind_some]
      cases hopened : source.drop gap with
      | nil => rfl
      | cons first rest =>
        dsimp only
        cases lexeme? embeddings first rest with
        | none => rfl
        | some found =>
          have hshorter := congrArg List.length hopened
          rw [List.length_drop, List.length_cons] at hshorter
          have hline : line + count + lineFeeds (source.take gap) + lineFeeds (first :: rest.take found.more) =
              line + lineFeeds (source.take gap) + lineFeeds (first :: rest.take found.more) + count := by omega
          rw [Option.bind_some, Option.bind_some, hline,
            ih (rest.drop found.more).length (by rw [List.length_drop]; omega) _ _ _ rfl, Option.map_map, Option.map_map]
          refine congrArg (Option.map · _) (funext fun tokens => ?_)
          simp only [Function.comp_apply, List.map_cons, Token.moved, Nat.add_right_comm line count]

theorem gapLength_feeds (count : Nat) (source : List Char) :
    gapLength .outside (List.replicate count '\n' ++ source) = (gapLength .outside source).map (· + count) := by
  induction count with
  | zero => simp
  | succ count ih =>
    rw [List.replicate_succ, List.cons_append, gapLength_blank (by decide), ih, Option.map_map]
    rfl

theorem scanFrom_feeds (count line : Nat) (embeddings : List Embedding) (source : List Char) :
    scanFrom line embeddings (List.replicate count '\n' ++ source) =
      (scanFrom line embeddings source).map (movedTokens count) := by
  rw [scanFrom_eq, scanFrom_eq line, gapLength_feeds]
  cases gapLength .outside source with
  | none => rfl
  | some gap =>
    have hlength : gap + count = (List.replicate count '\n').length + gap := by
      rw [List.length_replicate, Nat.add_comm]
    rw [Option.map_some, Option.bind_some, Option.bind_some, hlength, List.drop_length_add_append,
      List.take_length_add_append]
    cases source.drop gap with
    | nil => rfl
    | cons first rest =>
      dsimp only
      cases lexeme? embeddings first rest with
      | none => rfl
      | some found =>
        have hfeeds : lineFeeds (List.replicate count '\n' ++ source.take gap) = lineFeeds (source.take gap) + count := by
          simp [lineFeeds, Nat.add_comm]
        have hline : line + lineFeeds (List.replicate count '\n' ++ source.take gap) +
            lineFeeds (first :: rest.take found.more) =
              line + lineFeeds (source.take gap) + lineFeeds (first :: rest.take found.more) + count := by omega
        rw [Option.bind_some, Option.bind_some, hline, scanFrom_moved, Option.map_map, Option.map_map]
        refine congrArg (Option.map · _) (funext fun tokens => ?_)
        simp only [Function.comp_apply, movedTokens, Token.movedFirst, hfeeds, Nat.add_assoc]

/-- **Line feeds in front of a source move its tokens down**, as long as they hide no byte order mark. -/
theorem scan_feeds (count : Nat) (hmark : mark source = []) :
    scan (List.replicate count '\n' ++ source) = (scan source).map (movedTokens count) := by
  have hfeeds : mark (List.replicate count '\n' ++ source) = [] := by
    cases count with
    | zero => exact hmark
    | succ count => rfl
  have hnull : (List.replicate count '\n' ++ source).contains '\x00' = source.contains '\x00' := by
    rw [Bool.eq_iff_iff, List.contains_iff_mem, List.contains_iff_mem, List.mem_append]
    simp [List.mem_replicate]
  rw [scan_eq, scan_eq, hfeeds, hmark, hnull, List.length_nil, List.drop_zero, List.drop_zero]
  split
  · rfl
  · exact scanFrom_feeds count 1 [] source

end JavaAtlas.Syntax
