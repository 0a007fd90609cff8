/-
**Colours change nothing but escapes.**

On a terminal with colours a text holds sequences that are not shown: an escape character, a
bracket, parameters and the letter `m`.  What a reader sees is the text without them.  Here a text
is taken apart into what is shown and what is not, by looking at its characters alone and knowing
nothing of how it was put together.  If the texts that a diagnostic brings with it have no escapes
of their own, then whatever is asked of a terminal with colours, what is left without the sequences
is what a terminal without colours writes, and each sequence that starts a colour is followed by one
that ends it before the next one starts and before the step is over.

Main definitions:

* `Ansi.tokens` — a text taken apart into characters and sequences;
* `Ansi.strip`, `Ansi.Closed` — a text without its sequences, and a text that ends its colours;
* `Terminal.Request`, `Terminal.write` — what a terminal can be asked, and what it writes then.

Main results:

* `Ansi.tokens_append`, `Ansi.tokens_sequence` — how characters and sequences are recognised;
* `Piece.strip_renderAll`, `Piece.closed_renderAll` — what this makes of pieces of text;
* `Terminal.isClean_pieces` — what a terminal shows has no other escapes;
* `Terminal.colours_of_requests` — **the whole, for any requests in a row.**
-/

import SyntaxForest.Proofs.Numeral.Digits
import SyntaxForest.Report.Terminal

set_option relaxedAutoImplicit false
set_option autoImplicit false

namespace SyntaxForest

/-! ### Sequences in a text -/

namespace Ansi

/-- The character that a sequence starts with. -/
def escape : Char := '\x1b'

inductive Token
  | char (c : Char)
  | sequence (parameters : List Char)
  deriving DecidableEq

/-- The character of a part that is shown. -/
def Token.char? : Token → Option Char
  | .char c => some c
  | .sequence _ => none

/-- The parameters of the sequence that a text starts with, and what follows it. -/
def sequence? : List Char → Option (List Char × List Char)
  | c :: d :: rest =>
      if c = escape ∧ d = '[' ∧ 'm' ∈ rest then
        some (rest.takeWhile (· ≠ 'm'), (rest.dropWhile (· ≠ 'm')).tail)
      else none
  | _ => none

theorem length_lt_of_sequence? {text parameters rest : List Char}
    (h : sequence? text = some (parameters, rest)) : rest.length < text.length := by
  unfold sequence? at h
  split at h
  · next c d after =>
      split at h
      · cases h
        have hdrop := (List.dropWhile_suffix (l := after) (· ≠ 'm')).length_le
        rw [List.length_tail, List.length_cons, List.length_cons]
        omega
      · cases h
  · cases h

/-- A text taken apart. -/
def tokens (text : List Char) : List Token :=
  match h : sequence? text with
  | some (parameters, rest) =>
      have := length_lt_of_sequence? h
      .sequence parameters :: tokens rest
  | none =>
      match text with
      | [] => []
      | c :: rest => .char c :: tokens rest
termination_by text.length

/-- A text without its sequences. -/
def strip (text : String) : String :=
  String.ofList ((tokens text.toList).filterMap Token.char?)

/-- The parameters of the sequence that ends a colour. -/
def resetting : List Char := ['0']

/-- Colours are started and ended in turn, and none is left when the text is over; `started` says
whether there is one at the start. -/
def closed : (started : Bool) → List Token → Bool
  | started, [] => !started
  | started, .char _ :: rest => closed started rest
  | started, .sequence parameters :: rest =>
      if parameters = resetting then started && closed false rest else !started && closed true rest

/-- A text that ends each colour that it starts. -/
def Closed (text : String) : Prop := closed false (tokens text.toList) = true

/-- A text without escapes. -/
def IsClean (text : String) : Prop := escape ∉ text.toList

instance (text : String) : Decidable (IsClean text) := inferInstanceAs (Decidable (_ ∉ _))

/-! ### Characters and sequences are recognised -/

theorem tokens_nil : tokens [] = [] := by
  rw [tokens]
  rfl

/-- A character that is no escape starts no sequence. -/
theorem tokens_cons {c : Char} (h : c ≠ escape) (rest : List Char) :
    tokens (c :: rest) = .char c :: tokens rest := by
  have hnone : sequence? (c :: rest) = none := by
    cases rest with
    | nil => rfl
    | cons d rest => exact if_neg fun hc => h hc.1
  rw [tokens]
  split
  · next hsome =>
      rw [hnone] at hsome
      cases hsome
  · rfl

/-- **Characters without escapes are shown,** whatever follows them. -/
theorem tokens_append {text : List Char} (h : escape ∉ text) (rest : List Char) :
    tokens (text ++ rest) = text.map .char ++ tokens rest := by
  induction text with
  | nil => rfl
  | cons c text ih =>
      rw [List.mem_cons, not_or] at h
      obtain ⟨hc, htext⟩ := h
      rw [List.cons_append, tokens_cons (Ne.symm hc), ih htext, List.map_cons, List.cons_append]

/-- **A sequence ends where its letter stands first.** -/
theorem tokens_sequence {parameters : List Char} (h : 'm' ∉ parameters) (rest : List Char) :
    tokens (escape :: '[' :: (parameters ++ 'm' :: rest))
      = .sequence parameters :: tokens rest := by
  have hall : ∀ c ∈ parameters, decide (c ≠ 'm') = true := fun c hc =>
    decide_eq_true fun hm => h (hm ▸ hc)
  have hsome : sequence? (escape :: '[' :: (parameters ++ 'm' :: rest))
      = some (parameters, rest) := by
    rw [sequence?, if_pos ⟨rfl, rfl, List.mem_append_right _ List.mem_cons_self⟩,
      List.takeWhile_append_of_pos hall, List.dropWhile_append_of_pos hall,
      List.takeWhile_cons_of_neg (by simp), List.dropWhile_cons_of_neg (by simp),
      List.append_nil, List.tail_cons]
  rw [tokens]
  split
  · next hfound =>
      rw [hsome] at hfound
      cases hfound
      rfl
  · next hnone =>
      rw [hsome] at hnone
      cases hnone

/-- A sequence is taken out, and an escape that starts none is left. -/
example : strip "\x1b[1;31merror\x1b[0m: \x1b[2" = "error: \x1b[2" := by cbv

theorem closed_map_char (started : Bool) (text : List Char) (rest : List Token) :
    closed started (text.map .char ++ rest) = closed started rest := by
  induction text with
  | nil => rfl
  | cons c text ih => exact ih

/-! ### Texts without escapes -/

theorem IsClean.append {a b : String} (first : IsClean a) (second : IsClean b) :
    IsClean (a ++ b) := by
  rw [IsClean, String.toList_append, List.mem_append]
  exact fun h => h.elim first second

theorem isClean_toString (n : Nat) : IsClean (toString n) := by
  rw [IsClean, Nat.toString_eq_ofList_toDigits, String.toList_ofList]
  exact fun h => absurd (Numeral.isDigit_of_mem_toDigits h) (by decide)

end Ansi

open Ansi

/-! ### Pieces of text -/

/-- The parameters of the sequence that starts a colour. -/
def Colour.parameters : Colour → List Char
  | .red => ['1', ';', '3', '1']
  | .yellow => ['1', ';', '3', '3']
  | .green => ['1', ';', '3', '2']
  | .blue => ['1', ';', '3', '4']
  | .bold => ['1']

theorem Colour.toList_code (colour : Colour) :
    colour.code.toList = escape :: '[' :: (colour.parameters ++ ['m']) := by
  cases colour <;> rfl

theorem Colour.toList_reset : Colour.reset.toList = escape :: '[' :: (resetting ++ ['m']) := rfl

theorem Colour.notMem_parameters (colour : Colour) : 'm' ∉ colour.parameters := by
  cases colour <;> decide

theorem Colour.parameters_ne_resetting (colour : Colour) : colour.parameters ≠ resetting := by
  cases colour <;> decide

namespace Piece

def text : Piece → String
  | .plain text => text
  | .coloured _ text => text

/-- The parts of a piece that is shown in colours. -/
def tokens : Piece → List Token
  | .plain text => text.toList.map .char
  | .coloured colour text =>
      .sequence colour.parameters :: (text.toList.map .char ++ [.sequence resetting])

variable {piece : Piece} {pieces : List Piece}

theorem render_false (piece : Piece) : piece.render false = piece.text := by
  cases piece <;> rfl

theorem toList_renderAll (colours : Bool) (pieces : List Piece) :
    (renderAll colours pieces).toList
      = pieces.flatMap fun piece => (piece.render colours).toList := by
  rw [renderAll, String.toList_join, List.flatMap_map]

theorem tokens_render (h : IsClean piece.text) (rest : List Char) :
    Ansi.tokens ((piece.render true).toList ++ rest) = piece.tokens ++ Ansi.tokens rest := by
  cases piece with
  | plain text => exact tokens_append h rest
  | coloured colour text =>
      have hclean : escape ∉ text.toList := h
      rw [render, if_pos rfl, String.toList_append, String.toList_append, Colour.toList_code,
        Colour.toList_reset]
      simp only [List.append_assoc, List.cons_append, List.nil_append]
      rw [tokens_sequence colour.notMem_parameters, tokens_append hclean,
        tokens_sequence (by decide)]
      simp only [tokens, List.cons_append, List.append_assoc, List.nil_append]

/-- Pieces are recognised one after another. -/
theorem tokens_renderAll (h : ∀ piece ∈ pieces, IsClean piece.text) :
    Ansi.tokens (renderAll true pieces).toList = pieces.flatMap tokens := by
  rw [toList_renderAll]
  induction pieces with
  | nil => exact tokens_nil
  | cons piece rest ih =>
      obtain ⟨hpiece, hrest⟩ := List.forall_mem_cons.1 h
      rw [List.flatMap_cons, tokens_render hpiece, ih hrest, List.flatMap_cons]

theorem filterMap_tokens (piece : Piece) :
    piece.tokens.filterMap Token.char? = piece.text.toList := by
  have hshown (shown : List Char) : (shown.map Token.char).filterMap Token.char? = shown := by
    rw [List.filterMap_map]
    exact List.filterMap_some
  cases piece with
  | plain text => exact hshown text.toList
  | coloured colour text =>
      rw [tokens, List.filterMap_cons_none rfl, List.filterMap_append, hshown]
      exact List.append_nil _

/-- **Without its sequences a text is what is shown without colours.** -/
theorem strip_renderAll (h : ∀ piece ∈ pieces, IsClean piece.text) :
    strip (renderAll true pieces) = renderAll false pieces := by
  rw [strip, tokens_renderAll h, List.filterMap_flatMap, ← String.toList_inj, toList_renderAll,
    String.toList_ofList]
  simp only [filterMap_tokens, render_false]

/-- **Each colour is ended.** -/
theorem closed_renderAll (h : ∀ piece ∈ pieces, IsClean piece.text) :
    Closed (renderAll true pieces) := by
  have hpiece : ∀ (piece : Piece) (rest : List Token),
      closed false (piece.tokens ++ rest) = closed false rest := by
    intro piece rest
    cases piece with
    | plain text => exact closed_map_char false text.toList rest
    | coloured colour text =>
        rw [tokens, List.cons_append, List.append_assoc, closed,
          if_neg colour.parameters_ne_resetting, closed_map_char]
        rfl
  rw [Closed, tokens_renderAll h]
  clear h
  induction pieces with
  | nil => rfl
  | cons piece rest ih => rw [List.flatMap_cons, hpiece, ih]

end Piece

/-! ### What a terminal shows -/

/-- The texts of a diagnostic have no escapes. -/
structure Diagnostic.IsClean (d : Diagnostic) : Prop where
  message : Ansi.IsClean d.message
  labels : ∀ label ∈ d.labels, Ansi.IsClean label.message
  notes : ∀ note ∈ d.notes, Ansi.IsClean note
  suggestions : ∀ suggestion ∈ d.suggestions, Ansi.IsClean suggestion

namespace Terminal

inductive Request
  | emit (d : Diagnostic)
  | emitAll (ds : List Diagnostic)
  | emitSummary (errors warnings : Nat)
  | flush

def write (t : Terminal) : Request → String
  | .emit d => t.emit d
  | .emitAll ds => t.emitAll ds
  | .emitSummary errors warnings => t.emitSummary errors warnings
  | .flush => ""

def pieces (t : Terminal) : Request → List Piece
  | .emit d => t.diagnostic d
  | .emitAll ds => t.diagnostics ds
  | .emitSummary errors warnings => summary errors warnings
  | .flush => []

/-- The texts of the diagnostics in a request have no escapes. -/
def Request.IsClean : Request → Prop
  | .emit d => d.IsClean
  | .emitAll ds => ∀ d ∈ ds, d.IsClean
  | .emitSummary _ _ => True
  | .flush => True

theorem write_eq_renderAll (t : Terminal) (request : Request) :
    t.write request = Piece.renderAll t.colours (t.pieces request) := by
  cases request <;> rfl

/-! ### No other escapes -/

variable {t : Terminal} {d : Diagnostic}

theorem isClean_location (path : ∀ source ∈ t.source, Ansi.IsClean source.path) (span : Span) :
    Ansi.IsClean (t.location span) := by
  unfold location
  split
  · exact ((isClean_toString _).append (by decide)).append (isClean_toString _)
  · next source hsource =>
      have hpath := (path source hsource).append (b := ":") (by decide)
      exact ((hpath.append (isClean_toString _)).append (by decide)).append (isClean_toString _)

theorem isClean_label (path : ∀ source ∈ t.source, Ansi.IsClean source.path) {label : Label}
    (h : Ansi.IsClean label.message) : ∀ piece ∈ t.label label, Ansi.IsClean piece.text := by
  have hmarker : Ansi.IsClean ("  " ++ Diagnostic.marker label.isPrimary ++ " ") := by
    cases label.isPrimary <;> decide
  intro piece hp
  simp only [Terminal.label, List.mem_cons, List.not_mem_nil, or_false] at hp
  obtain rfl | rfl | rfl := hp
  · exact (hmarker.append (isClean_location path label.span)).append (by decide)
  · exact h
  · decide

theorem isClean_trailer {kind text : String} (colour : Colour) (hkind : Ansi.IsClean kind)
    (h : Ansi.IsClean text) : ∀ piece ∈ trailer kind colour text, Ansi.IsClean piece.text := by
  have hbefore : Ansi.IsClean ": " := by decide
  intro piece hp
  simp only [trailer, List.mem_cons, List.not_mem_nil, or_false] at hp
  obtain rfl | rfl | rfl := hp
  · decide
  · exact hkind
  · exact (hbefore.append h).append (by decide)

theorem isClean_diagnostic (path : ∀ source ∈ t.source, Ansi.IsClean source.path)
    (clean : d.IsClean) : ∀ piece ∈ t.diagnostic d, Ansi.IsClean piece.text := by
  have hbefore : Ansi.IsClean ": " := by decide
  intro piece hp
  simp only [diagnostic, List.mem_append, List.mem_cons, List.not_mem_nil, or_false,
    List.mem_flatMap] at hp
  obtain ((((rfl | rfl | rfl) | ⟨label, hl, hp⟩) | ⟨note, hn, hp⟩) | ⟨suggestion, hs, hp⟩) | rfl
    := hp
  · cases d.severity <;> decide
  · cases d.code <;> decide
  · exact (hbefore.append clean.message).append (by decide)
  · exact isClean_label path (clean.labels label hl) piece hp
  · exact isClean_trailer .bold (by decide) (clean.notes note hn) piece hp
  · exact isClean_trailer .green (by decide) (clean.suggestions suggestion hs) piece hp
  · decide

theorem isClean_warningCount (warnings : Nat) : Ansi.IsClean (warningCount warnings) := by
  refine (((isClean_toString warnings).append (b := " warning") (by decide)).append ?_).append
    (by decide)
  split <;> decide

theorem isClean_errorCount (errors : Nat) : Ansi.IsClean (errorCount errors) := by
  unfold errorCount
  split
  · decide
  · exact (isClean_toString errors).append (by decide)

theorem isClean_summary (errors warnings : Nat) :
    ∀ piece ∈ summary errors warnings, Ansi.IsClean piece.text := by
  have hcolon : Ansi.IsClean ": " := by decide
  have haborting : Ansi.IsClean ": aborting due to " := by decide
  have hsemicolon : Ansi.IsClean "; " := by decide
  have hwarnings := isClean_warningCount warnings
  intro piece hp
  unfold summary at hp
  split at hp
  · simp only [List.mem_cons, List.not_mem_nil, or_false] at hp
    obtain rfl | rfl := hp
    · decide
    · refine ((haborting.append (isClean_errorCount errors)).append ?_).append (by decide)
      split
      · exact hsemicolon.append hwarnings
      · decide
  · split at hp
    · simp only [List.mem_cons, List.not_mem_nil, or_false] at hp
      obtain rfl | rfl := hp
      · decide
      · exact (hcolon.append hwarnings).append (by decide)
    · cases hp

/-- **What a terminal shows has no other escapes.** -/
theorem isClean_pieces (path : ∀ source ∈ t.source, Ansi.IsClean source.path) {request : Request}
    (clean : request.IsClean) : ∀ piece ∈ t.pieces request, Ansi.IsClean piece.text := by
  cases request with
  | emit d => exact isClean_diagnostic path clean
  | emitAll ds =>
      intro piece hp
      rcases List.mem_append.1 hp with hshown | hcounted
      · obtain ⟨d, hd, hshown⟩ := List.mem_flatMap.1 hshown
        exact isClean_diagnostic path (clean d hd) piece hshown
      · exact isClean_summary _ _ piece hcounted
  | emitSummary errors warnings => exact isClean_summary errors warnings
  | flush => exact List.forall_mem_nil _

/-! ### The whole -/

theorem join_write (t : Terminal) (requests : List Request) :
    String.join (requests.map t.write) = Piece.renderAll t.colours (requests.flatMap t.pieces) := by
  rw [Piece.renderAll_flatMap]
  exact congrArg String.join (List.map_congr_left fun request _ => write_eq_renderAll t request)

/-- **Colours change nothing but escapes.**  If neither the diagnostics in some requests nor the
path of the source have escapes of their own, then what a terminal with colours writes in answer to
each request is, without its sequences, what a terminal without colours writes, and so is all that
it writes; each colour that it starts it ends in the same answer, before it starts another.  And
to show several diagnostics is to show each of them and then the numbers of errors and warnings
among them. -/
theorem colours_of_requests {source : Option Source} {requests : List Request}
    (path : ∀ s ∈ source, Ansi.IsClean s.path) (clean : ∀ request ∈ requests, request.IsClean) :
    (requests.map (write ⟨true, source⟩)).map strip = requests.map (write ⟨false, source⟩)
      ∧ strip (String.join (requests.map (write ⟨true, source⟩)))
        = String.join (requests.map (write ⟨false, source⟩))
      ∧ (∀ text ∈ requests.map (write ⟨true, source⟩), Closed text)
      ∧ ∀ colours ds, write ⟨colours, source⟩ (.emitAll ds)
        = String.join (ds.map fun d => write ⟨colours, source⟩ (.emit d))
          ++ write ⟨colours, source⟩ (.emitSummary (ds.countP fun d => d.severity = .error)
            (ds.countP fun d => d.severity = .warning)) := by
  have hpieces : ∀ request ∈ requests, ∀ piece ∈ pieces ⟨true, source⟩ request,
      Ansi.IsClean piece.text := fun request hr => isClean_pieces path (clean request hr)
  refine ⟨?_, ?_, ?_, fun colours ds => emitAll_eq ⟨colours, source⟩ ds⟩
  · rw [List.map_map]
    refine List.map_congr_left fun request hr => ?_
    rw [Function.comp_apply, write_eq_renderAll, Piece.strip_renderAll (hpieces request hr),
      write_eq_renderAll]
    rfl
  · rw [join_write, join_write, Piece.strip_renderAll fun piece hp => ?_]
    · rfl
    · obtain ⟨request, hr, hp⟩ := List.mem_flatMap.1 hp
      exact hpieces request hr piece hp
  · intro text ht
    obtain ⟨request, hr, rfl⟩ := List.mem_map.1 ht
    rw [write_eq_renderAll]
    exact Piece.closed_renderAll (hpieces request hr)

/-- An error with two labels, a note and a suggestion. -/
def twoLabels : Diagnostic :=
  Diagnostic.build .error .semantic
    [.message "wrong [m", .label ⟨2, 3⟩ "here", .secondaryLabel ⟨0, 1⟩ "", .note "n",
      .suggestion "s"]

/-- The error is shown in a source of two lines, alone and with a summary. -/
theorem colours_of_twoLabels :
    let source := some ⟨"a", "b\nc", LineTable.ofSource "b\nc".toList⟩
    twoLabels.IsClean
      ∧ strip (emit ⟨true, source⟩ twoLabels) = emit ⟨false, source⟩ twoLabels
      ∧ Closed (emitAll ⟨true, source⟩ [twoLabels])
      ∧ emit ⟨true, source⟩ twoLabels ≠ emit ⟨false, source⟩ twoLabels := by
  intro source
  have clean : twoLabels.IsClean := ⟨by decide, by decide, by decide, by decide⟩
  have path : ∀ s ∈ source, Ansi.IsClean s.path := by
    intro s hs
    obtain rfl := Option.some.inj hs
    decide
  have requests : ∀ request ∈ [.emit twoLabels, .emitAll [twoLabels]], Request.IsClean request := by
    intro request hr
    simp only [List.mem_cons, List.not_mem_nil, or_false] at hr
    obtain rfl | rfl := hr
    · exact clean
    · exact fun d hd => List.mem_singleton.1 hd ▸ clean
  obtain ⟨stripped, -, closed, -⟩ := colours_of_requests path requests
  exact ⟨clean, List.head_eq_of_cons_eq stripped,
    closed _ (List.mem_cons_of_mem _ List.mem_cons_self), by decide +kernel⟩

end Terminal

end SyntaxForest
