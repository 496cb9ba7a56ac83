import EcmaLexer.CommandLine
import EcmaLexer.Proofs.Text.Display
import EcmaLexer.Proofs.Token.Keyword
import EcmaLexer.Proofs.Token.Punctuator
import Mathlib.Data.List.Forall2
import Mathlib.Data.List.Nodup

namespace EcmaLexer

namespace Token

/-- The tokens that are shown by name. -/
def named : List Token :=
  [error, endOfSource, stringLiteral, numericLiteral, bigIntLiteral, identifier, privateName,
   templateTail, templateCont]

/-- The three ways a token is shown. -/
inductive ShownAs : Token → List Char → Prop where
  | byName {token : Token} (hnamed : token ∈ named) : ShownAs token token.name.toList
  | keyword (k : Keyword) :
      ShownAs (.keyword k) ("keyword '".toList ++ (k.text.toList ++ ['\x27']))
  | punctuator (p : Punctuator) : ShownAs (.punctuator p) ('\x27' :: (p.text.toList ++ ['\x27']))

theorem display_shownAs (token : Token) : ShownAs token token.display.toList := by
  cases token with
  | keyword k =>
    simp only [display, String.toList_append, List.append_assoc]
    exact .keyword k
  | punctuator p =>
    simp only [display, String.toList_append, List.append_assoc]
    exact .punctuator p
  | _ => exact .byName (by decide)

namespace ShownAs

variable {token other : Token} {text again : List Char}

/-- What is shown of a token tells which one it is. -/
theorem inj (htoken : ShownAs token text) (hother : ShownAs other again) (heq : text = again) :
    token = other := by
  have hnames : (named.map (·.name.toList)).Nodup := by decide +kernel
  have hheads : ∀ token ∈ named, token.name.toList.head? ≠ some 'k' ∧
      token.name.toList.head? ≠ some '\x27' := by decide +kernel
  have hhead := congrArg List.head? heq
  cases htoken with
  | byName hnamed =>
    cases hother with
    | byName hother => exact List.inj_on_of_nodup_map hnames hnamed hother heq
    | keyword k => exact absurd hhead (hheads _ hnamed).1
    | punctuator p => exact absurd hhead (hheads _ hnamed).2
  | keyword k =>
    cases hother with
    | byName hother => exact absurd hhead.symm (hheads _ hother).1
    | keyword other =>
      have htext := List.append_cancel_right (List.append_cancel_left heq)
      rw [Keyword.text_inj (String.toList_inj.mp htext)]
    | punctuator p => cases hhead
  | punctuator p =>
    cases hother with
    | byName hother => exact absurd hhead.symm (hheads _ hother).2
    | keyword k => cases hhead
    | punctuator other =>
      have htext := List.append_cancel_right (List.cons.inj heq).2
      rw [Punctuator.text_inj (String.toList_inj.mp htext)]

theorem printed (htoken : ShownAs token text) {c : Char} (hmem : c ∈ text) : 0x20 ≤ c.toNat := by
  cases htoken with
  | byName hnamed =>
    have hnames : ∀ token ∈ named, token.name.toList.all (fun c => 0x20 ≤ c.toNat) = true := by
      decide +kernel
    exact Text.forall_mem_of_all (hnames _ hnamed) c hmem
  | keyword k =>
    have htexts : ∀ k ∈ Keyword.all, k.text.toList.all (fun c => 0x20 ≤ c.toNat) = true := by
      decide +kernel
    have hopening : ∀ c ∈ "keyword '".toList, 0x20 ≤ c.toNat := Text.forall_mem_of_all (by decide)
    rcases List.mem_append.mp hmem with hmem | hmem
    · exact hopening c hmem
    · rcases List.mem_append.mp hmem with hmem | hmem
      · exact Text.forall_mem_of_all (htexts k k.mem_all) c hmem
      · rw [List.mem_singleton.mp hmem]
        decide
  | punctuator p =>
    have htexts : ∀ p ∈ Punctuator.all, p.text.toList.all (fun c => 0x20 ≤ c.toNat) = true := by
      decide +kernel
    rcases List.mem_cons.mp hmem with rfl | hmem
    · decide
    · rcases List.mem_append.mp hmem with hmem | hmem
      · exact Text.forall_mem_of_all (htexts p p.mem_all) c hmem
      · rw [List.mem_singleton.mp hmem]
        decide

end ShownAs

end Token

namespace CommandLine

open Text (LineMap)

variable {map otherMap : LineMap} {raw : Bool} {scanned other : ScannedToken}

/-- Two tokens of which the same can be told from a line. -/
structure ListedAlike (map otherMap : LineMap) (scanned other : ScannedToken) : Prop where
  start : map.locationOf scanned.range.first = otherMap.locationOf other.range.first
  token : scanned.token = other.token
  value : scanned.value = other.value
  raw : scanned.raw = other.raw

/-- The mark of a value that was abandoned is none of the values. -/
theorem doubleQuoted_ne_mark (value : List Char) :
    Text.doubleQuoted value ≠ "<invalid escape>".toList := by
  intro heq
  cases congrArg List.head? heq

theorem valueFields_inj (heq : valueFields true scanned = valueFields true other) :
    scanned.value = other.value ∧ scanned.raw = other.raw := by
  unfold valueFields at heq
  cases hvalue : scanned.value with
  | none =>
    cases hother : other.value with
    | none =>
      rw [hvalue, hother] at heq
      obtain ⟨-, hraw⟩ := List.cons.inj heq
      exact ⟨rfl, Text.doubleQuoted_inj (List.cons.inj hraw).1⟩
    | some again =>
      rw [hvalue, hother] at heq
      exact absurd (List.cons.inj heq).1.symm (doubleQuoted_ne_mark again)
  | some value =>
    cases hother : other.value with
    | none =>
      rw [hvalue, hother] at heq
      exact absurd (List.cons.inj heq).1 (doubleQuoted_ne_mark value)
    | some again =>
      rw [hvalue, hother] at heq
      obtain ⟨hvalues, hraw⟩ := List.cons.inj heq
      rw [Text.doubleQuoted_inj hvalues]
      exact ⟨rfl, Text.doubleQuoted_inj (List.cons.inj hraw).1⟩

theorem tokenFields_inj (heq : tokenFields map true scanned = tokenFields otherMap true other) :
    ListedAlike map otherMap scanned other := by
  obtain ⟨hstart, hfields⟩ := List.cons.inj heq
  obtain ⟨htoken, hvalues⟩ := List.cons.inj hfields
  obtain ⟨hvalue, hraw⟩ := valueFields_inj hvalues
  exact ⟨Text.Location.display_inj (String.toList_inj.mp hstart),
    scanned.token.display_shownAs.inj other.token.display_shownAs htoken, hvalue, hraw⟩

theorem length_tokenFields (map : LineMap) (raw : Bool) (scanned : ScannedToken) :
    (tokenFields map raw scanned).length =
      if raw || scanned.value.isNone then 4 else 3 := by
  unfold tokenFields valueFields
  cases scanned.value <;> cases raw <;> rfl

/-- No field has a character in it that could end a field or a line. -/
theorem tokenFields_printed {field : List Char} (hmem : field ∈ tokenFields map raw scanned)
    {c : Char} (hc : c ∈ field) : 0x20 ≤ c.toNat := by
  have hmark : ∀ c ∈ "<invalid escape>".toList, 0x20 ≤ c.toNat :=
    Text.forall_mem_of_all (by decide)
  rcases List.mem_cons.mp hmem with rfl | hmem
  · exact Text.Location.display_printed hc
  rcases List.mem_cons.mp hmem with rfl | hmem
  · exact scanned.token.display_shownAs.printed hc
  unfold valueFields at hmem
  split at hmem
  · rw [List.mem_singleton.mp hmem] at hc
    exact Text.doubleQuoted_printed hc
  · rcases List.mem_cons.mp hmem with rfl | hmem
    · exact Text.doubleQuoted_printed hc
    · rw [List.mem_singleton.mp hmem] at hc
      exact Text.doubleQuoted_printed hc
  · rcases List.mem_cons.mp hmem with rfl | hmem
    · exact hmark c hc
    · rw [List.mem_singleton.mp hmem] at hc
      exact Text.doubleQuoted_printed hc

theorem not_mem_field {field : List Char} (hmem : field ∈ tokenFields map raw scanned)
    {c : Char} (hcontrol : c.toNat < 0x20) : c ∉ field := fun hc =>
  absurd (tokenFields_printed hmem hc) (Nat.not_le.mpr hcontrol)

/-- A line falls apart into its fields at the tabs. -/
theorem splitOn_fields (map : LineMap) (raw : Bool) (scanned : ScannedToken) :
    (['\t'].intercalate (tokenFields map raw scanned)).splitOn '\t' =
      tokenFields map raw scanned :=
  List.splitOn_intercalate '\t' (fun _ hmem => not_mem_field hmem (by decide)) nofun

theorem mem_intercalate {separator c : Char} {fields : List (List Char)}
    (hmem : c ∈ [separator].intercalate fields) :
    c = separator ∨ ∃ field ∈ fields, c ∈ field := by
  induction fields with
  | nil => cases hmem
  | cons field fields ih =>
    cases fields with
    | nil =>
      rw [List.intercalate_singleton] at hmem
      exact .inr ⟨field, List.mem_cons_self, hmem⟩
    | cons next fields =>
      rw [List.intercalate_cons_cons] at hmem
      rcases List.mem_append.mp hmem with hmem | hmem
      · rcases List.mem_append.mp hmem with hmem | hmem
        · exact .inr ⟨field, List.mem_cons_self, hmem⟩
        · exact .inl (List.mem_singleton.mp hmem)
      · rcases ih hmem with hsame | ⟨later, hlater, hmem⟩
        · exact .inl hsame
        · exact .inr ⟨later, List.mem_cons_of_mem _ hlater, hmem⟩

theorem lineFeed_not_mem (map : LineMap) (raw : Bool) (scanned : ScannedToken) :
    '\n' ∉ ['\t'].intercalate (tokenFields map raw scanned) := by
  intro hmem
  rcases mem_intercalate hmem with htab | ⟨field, hfield, hmem⟩
  · cases htab
  · exact not_mem_field hfield (by decide) hmem

/-- The output falls apart into the lines of the tokens at the line feeds. -/
theorem splitOn_lines (map : LineMap) (raw : Bool) (tokens : List ScannedToken) :
    (tokens.flatMap (tokenLine map raw)).splitOn '\n' =
      tokens.map (fun scanned => ['\t'].intercalate (tokenFields map raw scanned)) ++ [[]] := by
  induction tokens with
  | nil => exact List.splitOn_nil '\n'
  | cons scanned tokens ih =>
    rw [List.flatMap_cons, tokenLine, List.append_assoc, List.singleton_append,
      List.splitOn_append_cons_self_of_not_mem (lineFeed_not_mem map raw scanned), ih]
    rfl

theorem dump_output? (settings : Settings) (source : List Char) :
    (dump settings source).output? = some (String.ofList
      ((tokensOf (Stream.runAll (.ofSource source settings.options)).items).flatMap
        (tokenLine (.ofText source) settings.raw))) := by
  simp only [dump]
  split <;> rfl

theorem dump_lines (settings : Settings) (source : List Char) :
    let tokens := tokensOf (Stream.runAll (.ofSource source settings.options)).items
    ∃ output lines, (dump settings source).output? = some output ∧
      output.toList.splitOn '\n' = lines ++ [[]] ∧
      lines.map (List.splitOn '\t') = tokens.map (tokenFields (.ofText source) settings.raw) := by
  intro tokens
  refine ⟨_, tokens.map fun scanned =>
    ['\t'].intercalate (tokenFields (.ofText source) settings.raw scanned),
    dump_output? settings source, ?_, ?_⟩
  · rw [String.toList_ofList, splitOn_lines]
  · rw [List.map_map]
    exact List.map_congr_left fun scanned _ => splitOn_fields _ _ scanned

/-- Equal lines are those of tokens of which they tell the same. -/
theorem listedAlike_of_lines {map otherMap : LineMap} {tokens others : List ScannedToken}
    (heq : tokens.flatMap (tokenLine map true) = others.flatMap (tokenLine otherMap true)) :
    List.Forall₂ (ListedAlike map otherMap) tokens others := by
  have hlines := congrArg (List.splitOn '\n') heq
  rw [splitOn_lines, splitOn_lines] at hlines
  have hforall := List.forall₂_eq_eq_eq ▸ List.append_cancel_right hlines
  rw [List.forall₂_map_left_iff, List.forall₂_map_right_iff] at hforall
  refine hforall.imp fun scanned other hline => tokenFields_inj ?_
  rw [← splitOn_fields map true scanned, hline, splitOn_fields]

end CommandLine

end EcmaLexer
