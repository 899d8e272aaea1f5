import LoadTest.Proofs.Decoding
import LoadTest.Proofs.Layout
import LoadTest.Service.Console

/-!
# What an operator types

The lines that the console reads and what each of them does. `Lines` says how bytes fall into lines,
and `AsksToStop` which lines are the command to stop. The command is carried out once for each such
line, up to the first line that is no valid UTF-8, and nothing else ends the reading.
-/

namespace LoadTest

open Text

variable {κ : Type}

/-- The lines of some bytes. A line ends with a line feed, or with a carriage return and a line
feed; the last one may have no end. -/
inductive Lines : List UInt8 → List (List UInt8) → Prop
  | none : Lines [] []
  | last {line : List UInt8} (hne : line ≠ []) (hfeed : 10 ∉ line) : Lines line [line]
  | feed {line rest : List UInt8} {lines : List (List UInt8)} (hfeed : 10 ∉ line)
      (hreturn : line.getLast? ≠ some 13) (hrest : Lines rest lines) :
      Lines (line ++ 10 :: rest) (line :: lines)
  | returnFeed {line rest : List UInt8} {lines : List (List UInt8)} (hfeed : 10 ∉ line)
      (hrest : Lines rest lines) : Lines (line ++ 13 :: 10 :: rest) (line :: lines)

/-- The bytes of a text. -/
def utf8 (text : List Char) : List UInt8 := text.flatMap String.utf8EncodeChar

/-- The command to stop, with blanks around it. Each of its letters may be a capital one. -/
def AsksToStop (text : List Char) : Prop :=
  ∃ before after s t o p, text = before ++ [s, t, o, p] ++ after ∧
    (∀ c ∈ before, isBlank c = true) ∧ (∀ c ∈ after, isBlank c = true) ∧
    s ∈ ['s', 'S'] ∧ t ∈ ['t', 'T'] ∧ o ∈ ['o', 'O'] ∧ p ∈ ['p', 'P']

/-! ### Lines -/

/-- A line without a carriage return at its end. -/
def withoutReturn (line : List UInt8) : List UInt8 :=
  match line.reverse with
  | 13 :: rest => rest.reverse
  | _ => line

lemma byteLines_eq_go (bytes : List UInt8) :
    byteLines bytes = byteLines.go withoutReturn [] bytes := rfl

lemma withoutReturn_of_getLast? {line : List UInt8} (h : line.getLast? ≠ some 13) :
    withoutReturn line = line := by
  rw [List.getLast?_eq_head?_reverse] at h
  rw [withoutReturn]
  split
  next hreverse => simp [hreverse] at h
  next => rfl

lemma withoutReturn_append (line : List UInt8) : withoutReturn (line ++ [13]) = line := by
  simp [withoutReturn]

lemma go_append {line : List UInt8} (hfeed : 10 ∉ line) (before rest : List UInt8) :
    byteLines.go withoutReturn before (line ++ rest) =
      byteLines.go withoutReturn (line.reverse ++ before) rest := by
  induction line generalizing before with
  | nil => rfl
  | cons b line ih =>
    obtain ⟨hb, hline⟩ := not_or.1 (List.mem_cons.not.1 hfeed)
    rw [List.cons_append, byteLines.go, if_neg (Ne.symm hb), ih hline, List.reverse_cons,
      List.append_assoc, List.singleton_append]

lemma byteLines_append {line : List UInt8} (hfeed : 10 ∉ line) (rest : List UInt8) :
    byteLines (line ++ 10 :: rest) = withoutReturn line :: byteLines rest := by
  rw [byteLines_eq_go, go_append hfeed, List.append_nil, byteLines.go, if_pos rfl,
    List.reverse_reverse, byteLines_eq_go]

lemma byteLines_of_not_mem {line : List UInt8} (hne : line ≠ []) (hfeed : 10 ∉ line) :
    byteLines line = [line] := by
  have hgo := go_append hfeed [] []
  rw [List.append_nil, List.append_nil] at hgo
  obtain ⟨b, bs, hreverse⟩ := List.exists_cons_of_ne_nil (List.reverse_ne_nil_iff.2 hne)
  rw [byteLines_eq_go, hgo, hreverse, byteLines.go, ← hreverse, List.reverse_reverse]
  simp

/-- Bytes fall into lines in one way. -/
theorem lines_iff_eq_byteLines {bytes : List UInt8} {lines : List (List UInt8)} :
    Lines bytes lines ↔ lines = byteLines bytes := by
  constructor
  · intro h
    induction h with
    | none => rfl
    | last hne hfeed => exact (byteLines_of_not_mem hne hfeed).symm
    | feed hfeed hreturn hrest ih =>
      rw [byteLines_append hfeed, withoutReturn_of_getLast? hreturn, ih]
    | @returnFeed line rest lines hfeed hrest ih =>
      have hfeed' : 10 ∉ line ++ [13] := by simpa using hfeed
      rw [List.append_cons, byteLines_append hfeed', withoutReturn_append, ih]
  · rintro rfl
    induction hlength : bytes.length using Nat.strong_induction_on generalizing bytes with
    | _ n ih =>
      by_cases hmem : 10 ∈ bytes
      · obtain ⟨line, rest, rfl, hfeed⟩ := List.eq_append_cons_of_mem hmem
        have hrest : Lines rest (byteLines rest) := by
          refine ih rest.length ?_ rfl
          simp only [List.length_append, List.length_cons] at hlength
          omega
        rw [byteLines_append hfeed]
        by_cases hreturn : line.getLast? = some 13
        · obtain ⟨line, rfl⟩ := List.getLast?_eq_some_iff.1 hreturn
          rw [withoutReturn_append, List.append_assoc, List.singleton_append]
          exact .returnFeed (fun h => hfeed (List.mem_append_left _ h)) hrest
        · rw [withoutReturn_of_getLast? hreturn]
          exact .feed hfeed hreturn hrest
      · by_cases hne : bytes = []
        · subst hne
          exact .none
        · rw [byteLines_of_not_mem hne hmem]
          exact .last hne hmem

/-! ### Commands -/

lemma exists_eq_append_trim (text : List Char) : ∃ before after,
    text = before ++ trim text ++ after ∧ (∀ c ∈ before, isBlank c = true) ∧
      ∀ c ∈ after, isBlank c = true := by
  let rest := text.dropWhile isBlank
  have hstart : text.takeWhile isBlank ++ rest = text := List.takeWhile_append_dropWhile
  have hend : trim text ++ (rest.reverse.takeWhile isBlank).reverse = rest := by
    rw [trim, ← List.reverse_append, List.takeWhile_append_dropWhile, List.reverse_reverse]
  refine ⟨text.takeWhile isBlank, (rest.reverse.takeWhile isBlank).reverse, ?_, ?_, ?_⟩
  · rw [List.append_assoc, hend, hstart]
  · exact List.all_eq_true.1 List.all_takeWhile
  · exact fun c hc => List.all_eq_true.1 List.all_takeWhile c (List.mem_reverse.1 hc)

lemma trim_append {before command after : List Char} (hbefore : ∀ c ∈ before, isBlank c = true)
    (hafter : ∀ c ∈ after, isBlank c = true) (hhead : ∀ c ∈ command.head?, isBlank c = false)
    (hlast : ∀ c ∈ command.getLast?, isBlank c = false) (hne : command ≠ []) :
    trim (before ++ command ++ after) = command := by
  have hdrop : ∀ s : List Char, (∀ c ∈ s.head?, isBlank c = false) → s.dropWhile isBlank = s := by
    intro s hs
    cases s with
    | nil => rfl
    | cons c s => rw [List.dropWhile_cons_of_neg (by simpa using hs c rfl)]
  have hstart : ∀ c ∈ (command ++ after).head?, isBlank c = false := by
    rwa [List.head?_append_of_ne_nil _ hne]
  have hend : ∀ c ∈ command.reverse.head?, isBlank c = false := by
    rwa [← List.getLast?_eq_head?_reverse]
  rw [trim, List.append_assoc, List.dropWhile_append_of_pos hbefore, hdrop _ hstart,
    List.reverse_append, List.dropWhile_append_of_pos (by simpa using hafter), hdrop _ hend,
    List.reverse_reverse]

/-- A capital letter comes to the same as its small one in a command, and no other character does.
-/
lemma toLower_eq_iff {small capital : Char} (hsmall : small.toLower = small)
    (hcapital : capital.toLower = small)
    (honly : ∀ n < 26, (Char.ofNat (0x41 + n)).toLower = small →
      Char.ofNat (0x41 + n) ∈ [small, capital]) (c : Char) :
    c.toLower = small ↔ c ∈ [small, capital] := by
  constructor
  · exact forall_toLower (P := fun c c' => c' = small → c ∈ [small, capital])
      (fun c heq => by simp [heq]) honly c
  · intro h
    obtain rfl | rfl := List.mem_pair.1 h
    · exact hsmall
    · exact hcapital

lemma isStop_iff {command : List Char} : isStop command = true ↔
    ∃ s t o p, command = [s, t, o, p] ∧ s ∈ ['s', 'S'] ∧ t ∈ ['t', 'T'] ∧ o ∈ ['o', 'O'] ∧
      p ∈ ['p', 'P'] := by
  have hs : ∀ c, c.toLower = 's' ↔ c ∈ ['s', 'S'] := toLower_eq_iff rfl rfl (by decide)
  have ht : ∀ c, c.toLower = 't' ↔ c ∈ ['t', 'T'] := toLower_eq_iff rfl rfl (by decide)
  have ho : ∀ c, c.toLower = 'o' ↔ c ∈ ['o', 'O'] := toLower_eq_iff rfl rfl (by decide)
  have hp : ∀ c, c.toLower = 'p' ↔ c ∈ ['p', 'P'] := toLower_eq_iff rfl rfl (by decide)
  have hstop : "stop".toList = ['s', 't', 'o', 'p'] := rfl
  simp only [isStop, beq_iff_eq, hstop, List.map_eq_cons_iff, List.map_eq_nil_iff, ← hs, ← ht,
    ← ho, ← hp]
  constructor
  · rintro ⟨s, _, rfl, hs, t, _, rfl, ht, o, _, rfl, ho, p, _, rfl, hp, rfl⟩
    exact ⟨s, t, o, p, rfl, hs, ht, ho, hp⟩
  · rintro ⟨s, t, o, p, rfl, hs, ht, ho, hp⟩
    exact ⟨s, _, rfl, hs, t, _, rfl, ht, o, _, rfl, ho, p, _, rfl, hp, rfl⟩

lemma isBlank_of_mem_pair {a b c : Char} (ha : isBlank a = false) (hb : isBlank b = false)
    (hc : c ∈ [a, b]) : isBlank c = false := by
  obtain rfl | rfl := List.mem_pair.1 hc
  · exact ha
  · exact hb

theorem isStop_trim {text : List Char} : isStop (trim text) = true ↔ AsksToStop text := by
  constructor
  · intro h
    obtain ⟨s, t, o, p, htrim, hletters⟩ := isStop_iff.1 h
    obtain ⟨before, after, htext, hbefore, hafter⟩ := exists_eq_append_trim text
    exact ⟨before, after, s, t, o, p, htrim ▸ htext, hbefore, hafter, hletters⟩
  · rintro ⟨before, after, s, t, o, p, rfl, hbefore, hafter, hs, ht, ho, hp⟩
    have hfirst : isBlank s = false := isBlank_of_mem_pair rfl rfl hs
    have hlast : isBlank p = false := isBlank_of_mem_pair rfl rfl hp
    rw [trim_append hbefore hafter (by simpa using hfirst) (by simpa using hlast) (by simp)]
    exact isStop_iff.2 ⟨s, t, o, p, rfl, hs, ht, ho, hp⟩

instance : DecidablePred AsksToStop := fun _ => decidable_of_iff _ isStop_trim

/-! ### Reading -/

namespace Control

variable (c : Control κ)

/-- The state after the command to stop has been carried out once for each text that is it. -/
def stops : List (List Char) → κ → κ
  | [], k => k
  | text :: texts, k => stops texts (if AsksToStop text then (c.stop k).2 else k)

lemma command_state (text : List Char) (k : κ) :
    (c.command text k).2 = if AsksToStop text then (c.stop k).2 else k := by
  rw [command]
  simp only [← isStop_trim]
  split_ifs with hempty hstop
  · rw [List.isEmpty_iff] at hempty
    simp [hempty, isStop] at *
  · rfl
  · rcases hk : c.stop k with ⟨_ | _, k'⟩ <;> rfl
  · rfl

/-- Lines of valid text never end the reading. -/
lemma commands_append (texts : List (List Char)) (lines : List (List UInt8)) (k : κ) :
    (c.commands (texts.map utf8 ++ lines) k).1 = (c.commands lines (c.stops texts k)).1 ∧
      (c.commands (texts.map utf8 ++ lines) k).2.2 = (c.commands lines (c.stops texts k)).2.2 := by
  induction texts generalizing k with
  | nil => exact ⟨rfl, rfl⟩
  | cons text texts ih =>
    have hdecode : decodeUtf8 (utf8 text) = .ok text := decodeUtf8_eq_ok.2 rfl
    rw [List.map_cons, List.cons_append, commands, hdecode, stops, ← c.command_state text k]
    exact ih (c.command text k).2

/-- A line that is no valid UTF-8 ends it. -/
lemma commands_of_invalid {bad : List UInt8} (h : ¬ bad.toByteArray.IsValidUTF8)
    (lines : List (List UInt8)) (k : κ) :
    (∃ fault, (c.commands (bad :: lines) k).1 = .error (.input fault)) ∧
      (c.commands (bad :: lines) k).2.2 = k := by
  obtain ⟨fault, hfault⟩ := exists_decodeUtf8_eq_error.2 h
  rw [commands, hfault]
  exact ⟨⟨fault, rfl⟩, rfl⟩

end Control

lemma isValidUTF8_utf8 (text : List Char) : (utf8 text).toByteArray.IsValidUTF8 := ⟨text, rfl⟩

/-- Some lines up to the first one that is no valid UTF-8. -/
lemma exists_eq_map_utf8_append (lines : List (List UInt8)) :
    ∃ (texts : List (List Char)) (after : List (List UInt8)), lines = texts.map utf8 ++ after ∧
      ∀ bad ∈ after.head?, ¬ bad.toByteArray.IsValidUTF8 := by
  induction lines with
  | nil => exact ⟨[], [], rfl, by simp⟩
  | cons line lines ih =>
    cases hdecode : decodeUtf8 line with
    | error fault =>
      refine ⟨[], line :: lines, rfl, fun bad hbad => ?_⟩
      obtain rfl := Option.some.inj hbad
      exact exists_decodeUtf8_eq_error.1 ⟨fault, hdecode⟩
    | ok text =>
      obtain ⟨texts, after, rfl, hafter⟩ := ih
      refine ⟨text :: texts, after, ?_, hafter⟩
      rw [decodeUtf8_eq_ok.1 hdecode]
      rfl

/-- Reading the commands in some bytes. The bytes fall into lines in one way. The command to stop is
carried out once for each line that asks for it and stands before the first line that is no valid
UTF-8, and nothing else is done. The reading ends well exactly if all lines are valid and with an
error of the input exactly if one is not, whatever comes of the command. -/
theorem Control.readCommands_by_lines (c : Control κ) (bytes : List UInt8) (k : κ) :
    ∃ lines texts after, (∀ other, Lines bytes other ↔ other = lines) ∧
      lines = texts.map utf8 ++ after ∧
      (∀ bad ∈ after.head?, ¬ bad.toByteArray.IsValidUTF8) ∧
      (c.readCommands bytes k).2.2 = c.stops texts k ∧
      ((c.readCommands bytes k).1 = .ok () ↔ ∀ line ∈ lines, line.toByteArray.IsValidUTF8) ∧
      ((∃ fault, (c.readCommands bytes k).1 = .error (.input fault)) ↔
        ∃ line ∈ lines, ¬ line.toByteArray.IsValidUTF8) := by
  obtain ⟨texts, after, heq, hafter⟩ := exists_eq_map_utf8_append (byteLines bytes)
  obtain ⟨hresult, hstate⟩ := c.commands_append texts after k
  rw [← heq, ← readCommands] at hresult hstate
  refine ⟨byteLines bytes, texts, after, fun _ => lines_iff_eq_byteLines, heq, hafter, ?_⟩
  have hvalid : ∀ line ∈ texts.map utf8, line.toByteArray.IsValidUTF8 := by
    simpa using fun text _ => isValidUTF8_utf8 text
  rw [heq, hresult, hstate]
  cases after with
  | nil =>
    rw [List.append_nil]
    refine ⟨rfl, ⟨fun _ => hvalid, fun _ => rfl⟩, ⟨?_, ?_⟩⟩
    · rintro ⟨_, hfault⟩
      cases hfault
    · rintro ⟨line, hline, hinvalid⟩
      exact absurd (hvalid line hline) hinvalid
  | cons bad after =>
    have hbad : ¬ bad.toByteArray.IsValidUTF8 := hafter bad rfl
    have hmem : bad ∈ texts.map utf8 ++ bad :: after := by simp
    obtain ⟨⟨fault, hfault⟩, hkept⟩ := c.commands_of_invalid hbad after (c.stops texts k)
    rw [hfault]
    refine ⟨hkept, ⟨?_, fun h => absurd (h bad hmem) hbad⟩, fun _ => ⟨bad, hmem, hbad⟩,
      fun _ => ⟨fault, rfl⟩⟩
    intro hok
    cases hok

end LoadTest
