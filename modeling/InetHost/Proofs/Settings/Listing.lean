import InetHost.Proofs.Settings.Literal
import InetHost.Proofs.Settings.Resolution

/-! The listing of constants, read as the text that it is. Apart from empty lines and comments it has one line
for each setting, which defines a constant of its name with a literal for its value, and from the literal the
value can be read back. -/

namespace InetHost.Settings

def unlines (lines : List (List Char)) : List Char := lines.flatMap fun line => line ++ ['\n']

def isCode (line : List Char) : Bool := !line.isEmpty && !List.isPrefixOf ['/', '/'] line

def codeLines (text : String) : List (List Char) := (text.toList.splitOn '\n').filter isCode

/-- A line that defines the constant of a setting. -/
def Defines (line : List Char) (s : Setting) (v : Literal) : Prop :=
  ∃ literal, Denotes literal v ∧ line = "pub const ".toList ++ s.constant.toList ++ ": ".toList ++
    s.type.toList ++ " = ".toList ++ literal ++ [';']

section Lines

variable {lines lines' : List (List Char)}

theorem unlines_append : unlines (lines ++ lines') = unlines lines ++ unlines lines' := List.flatMap_append

theorem splitOn_unlines (h : ∀ line ∈ lines, '\n' ∉ line) : (unlines lines).splitOn '\n' = lines ++ [[]] := by
  induction lines with
  | nil => rfl
  | cons line lines ih =>
    obtain ⟨hline, hlines⟩ := List.forall_mem_cons.1 h
    rw [unlines, List.flatMap_cons, List.append_assoc, List.singleton_append,
      List.splitOn_append_cons_self_of_not_mem hline]
    change line :: (unlines lines).splitOn '\n' = _
    rw [ih hlines, List.cons_append]

theorem codeLines_of_toList_eq {text : String} (ht : text.toList = unlines lines)
    (h : ∀ line ∈ lines, '\n' ∉ line) : codeLines text = lines.filter isCode := by
  rw [codeLines, ht, splitOn_unlines h, List.filter_append]
  exact List.append_nil _

end Lines

def Definition.line (d : Definition) : List Char :=
  "pub const ".toList ++ d.name.toList ++ ": ".toList ++ d.type.toList ++ " = ".toList ++
    d.value.text.toList ++ [';']

def ruleLine : List Char := "// ============================================================".toList

def Group.lines (g : Group) : List (List Char) :=
  [[], ruleLine, '/' :: '/' :: ' ' :: g.title.toList, ruleLine] ++
    g.definitions.flatMap fun d => [[], '/' :: '/' :: '/' :: ' ' :: d.comment.toList, d.line]

def headingLines : List (List Char) :=
  ["//! Rux 网络协议栈配置（自动生成）", "//!",
    "//! 此文件由 build.rs 根据 Net.toml 自动生成，请勿手动修改"].map String.toList

def Resolved.lines (r : Resolved) : List (List Char) := headingLines ++ r.groups.flatMap Group.lines

def Group.texts (g : Group) : List String :=
  g.title :: g.definitions.flatMap fun d => [d.comment, d.name, d.type]

theorem toList_heading : heading.toList = unlines headingLines := by
  decide +kernel

theorem toList_rule : rule.toList = ruleLine ++ ['\n'] := by
  decide +kernel

theorem Definition.toList_text (d : Definition) :
    d.text.toList = unlines ['/' :: '/' :: '/' :: ' ' :: d.comment.toList, d.line] := by
  have hcomment : "/// ".toList = ['/', '/', '/', ' '] := rfl
  have hnewline : "\n".toList = ['\n'] := rfl
  have hend : ";\n".toList = [';', '\n'] := rfl
  unfold Definition.text Definition.line unlines
  rw [List.flatMap_cons, List.flatMap_cons, List.flatMap_nil]
  simp only [String.toList_append, hcomment, hnewline, hend, List.append_assoc, List.cons_append,
    List.nil_append]

theorem Group.toList_text (g : Group) : g.text.toList = unlines g.lines := by
  have hcomment : "// ".toList = ['/', '/', ' '] := rfl
  have hnewline : "\n".toList = ['\n'] := rfl
  have hdefinitions : (String.join (g.definitions.map fun d => "\n" ++ d.text)).toList =
      unlines (g.definitions.flatMap fun d =>
        [[], '/' :: '/' :: '/' :: ' ' :: d.comment.toList, d.line]) := by
    rw [String.toList_join, List.flatMap_map, unlines, List.flatMap_assoc]
    refine congrArg (fun f => g.definitions.flatMap f) (funext fun d => ?_)
    rw [String.toList_append, d.toList_text, hnewline]
    rfl
  rw [Group.text, String.toList_append, hdefinitions, Group.lines, unlines_append]
  simp only [unlines, String.toList_append, toList_rule, hcomment, hnewline, List.flatMap_cons,
    List.flatMap_nil, List.append_assoc, List.cons_append, List.nil_append]

theorem toList_listing (r : Resolved) : r.listing.toList = unlines r.lines := by
  have hgroups : unlines (r.groups.flatMap Group.lines) =
      r.sizes.text.toList ++ r.addresses.text.toList ++ r.waits.text.toList := by
    simp only [Group.toList_text, Resolved.groups, List.flatMap_cons, List.flatMap_nil, unlines_append,
      List.append_nil, List.append_assoc]
  rw [Resolved.lines, unlines_append, hgroups, ← toList_heading]
  simp only [Resolved.listing, String.toList_append, List.append_assoc]

instance : Inhabited Resolved := ⟨⟨0, 0, 0, 0, 0, 0, 0, 0, 0, 0, 0, Mac.zero, 0, 0, 0, 0, 0⟩⟩

theorem newline_notMem_texts (r : Resolved) : ∀ g ∈ r.groups, ∀ text ∈ g.texts, '\n' ∉ text.toList := by
  have hdefault : ∀ texts ∈ (default : Resolved).groups.map Group.texts, ∀ text ∈ texts,
      '\n' ∉ text.toList := by decide +kernel
  have htexts : (default : Resolved).groups.map Group.texts = r.groups.map Group.texts := rfl
  rw [htexts] at hdefault
  exact List.forall_mem_map.1 hdefault

theorem Definition.newline_notMem_line {d : Definition} (hn : '\n' ∉ d.name.toList)
    (ht : '\n' ∉ d.type.toList) : '\n' ∉ d.line := by
  have hv := newline_notMem_text d.value
  unfold Definition.line
  simp only [List.mem_append, not_or]
  exact ⟨⟨⟨⟨⟨⟨by decide, hn⟩, by decide⟩, ht⟩, by decide⟩, hv⟩, by decide⟩

theorem Group.newline_notMem_lines {g : Group} (h : ∀ text ∈ g.texts, '\n' ∉ text.toList) :
    ∀ line ∈ g.lines, '\n' ∉ line := by
  have hrule : '\n' ∉ ruleLine := by decide +kernel
  obtain ⟨htitle, htexts⟩ := List.forall_mem_cons.1 h
  refine List.forall_mem_append.2 ⟨?_, List.forall_mem_flatMap.2 fun d hd => ?_⟩
  · simp only [List.forall_mem_cons]
    exact ⟨List.not_mem_nil, hrule, by simpa using htitle, hrule, nofun⟩
  · have hd' := List.forall_mem_flatMap.1 htexts d hd
    simp only [List.forall_mem_cons] at hd' ⊢
    exact ⟨List.not_mem_nil, by simpa using hd'.1, d.newline_notMem_line hd'.2.1 hd'.2.2.1, nofun⟩

theorem newline_notMem_lines (r : Resolved) : ∀ line ∈ r.lines, '\n' ∉ line := by
  have hheading : ∀ line ∈ headingLines, '\n' ∉ line := by decide +kernel
  refine List.forall_mem_append.2 ⟨hheading, List.forall_mem_flatMap.2 fun g hg => ?_⟩
  exact Group.newline_notMem_lines (newline_notMem_texts r g hg)

theorem isCode_line (d : Definition) : isCode d.line = true := by
  unfold Definition.line
  rfl

theorem filter_isCode_lines (g : Group) : g.lines.filter isCode = g.definitions.map Definition.line := by
  have hrule : isCode ruleLine = false := by decide +kernel
  have hdefinition (d : Definition) :
      [[], '/' :: '/' :: '/' :: ' ' :: d.comment.toList, d.line].filter isCode = [d.line] := by
    change [d.line].filter isCode = [d.line]
    rw [List.filter_cons_of_pos (isCode_line d), List.filter_nil]
  have htitle : [[], ruleLine, '/' :: '/' :: ' ' :: g.title.toList, ruleLine].filter isCode = [] := by
    rw [List.filter_eq_nil_iff]
    simp only [List.forall_mem_cons]
    exact ⟨nofun, by rw [hrule]; exact nofun, nofun, by rw [hrule]; exact nofun, nofun⟩
  rw [Group.lines, List.filter_append, htitle, List.nil_append, List.filter_flatMap]
  simp only [hdefinition]
  exact List.map_eq_flatMap.symm

theorem codeLines_listing (r : Resolved) : codeLines r.listing = r.definitions.map Definition.line := by
  have hheading : headingLines.filter isCode = [] := by decide +kernel
  rw [codeLines_of_toList_eq (toList_listing r) (newline_notMem_lines r), Resolved.lines,
    List.filter_append, hheading, List.nil_append, List.filter_flatMap, Resolved.definitions,
    List.map_flatMap]
  exact congrArg (fun f => r.groups.flatMap f) (funext filter_isCode_lines)

/-- The lines of a text define the constants of the settings, one after another. -/
def Lists (document : Value) (text : String) : Prop :=
  List.Forall₂ (fun s line => ∃ v, s.Resolves document v ∧ Defines line s v) settings (codeLines text)

section Generated

variable {document document' : Value} {s : Setting} {line : List Char} {v w : Literal} {r : Resolved}
  {e : SettingError} {text text' : String}

theorem Defines.unique (hv : Defines line s v) (hw : Defines line s w) : v = w := by
  obtain ⟨literal, hv, rfl⟩ := hv
  obtain ⟨literal', hw, hl⟩ := hw
  obtain rfl := List.append_cancel_left (List.append_cancel_right hl)
  exact hv.unique hw

theorem Setting.Resolves.iff (hv : s.Resolves document v) (hv' : s.Resolves document' v) :
    s.Resolves document w ↔ s.Resolves document' w :=
  ⟨fun hw => hv.unique hw ▸ hv', fun hw => hv'.unique hw ▸ hv⟩

theorem lists_listing (h : resolve document = .ok r) : Lists document r.listing := by
  have hvalues : List.Forall₂ (fun s d => s.Resolves document d.value) settings r.definitions :=
    List.forall₂_map_right_iff.1 (resolves_literals h)
  have hnames : settings.map (fun s => (s.constant, s.type)) =
      r.definitions.map fun d => (d.name, d.type) := rfl
  rw [← List.forall₂_eq_eq_eq, List.forall₂_map_left_iff, List.forall₂_map_right_iff] at hnames
  rw [Lists, codeLines_listing, List.forall₂_map_right_iff]
  refine List.Forall₂.mp (fun s d hn hv => ?_) hnames hvalues
  obtain ⟨hname, htype⟩ := Prod.mk.inj hn
  refine ⟨d.value, hv, d.value.text.toList, denotes_text d.value, ?_⟩
  rw [hname, htype]
  rfl

theorem listing_eq_iff {r r' : Resolved} (h : resolve document = .ok r) (h' : resolve document' = .ok r') :
    r.listing = r'.listing ↔ ∀ s ∈ settings, ∀ v, s.Resolves document v ↔ s.Resolves document' v := by
  constructor
  · intro heq
    have hlists := lists_listing h
    rw [heq] at hlists
    have hboth : List.Forall₂
        (fun s _ => (∀ v, s.Resolves document v ↔ s.Resolves document' v) ∧ True)
        settings (codeLines r'.listing) := by
      refine List.Forall₂.mp ?_ hlists (lists_listing h')
      rintro s line ⟨v, hv, hd⟩ ⟨v', hv', hd'⟩
      obtain rfl := hd.unique hd'
      exact ⟨fun _ => hv.iff hv', trivial⟩
    exact ((List.forall₂_and_left _ _).1 hboth).1
  · intro hiff
    have hvalues : List.Forall₂ (Setting.Resolves document) settings r'.literals :=
      ((List.forall₂_and_left _ _).2 ⟨hiff, resolves_literals h'⟩).imp fun s v hv => (hv.1 v).2 hv.2
    have hunique : Relator.RightUnique (Setting.Resolves document) := fun _ _ _ hv hw => hv.unique hw
    rw [Resolved.literals_injective (List.right_unique_forall₂' hunique (resolves_literals h) hvalues)]

theorem generate_eq_ok_iff :
    generate (some document) = .ok text ↔ ∃ r, resolve document = .ok r ∧ r.listing = text :=
  Sequence.map_eq_ok_iff

theorem generate_eq_error_iff : generate (some document) = .error e ↔ FirstMalformed document e :=
  Sequence.map_eq_error_iff.trans resolve_eq_error_iff

end Generated

/-- A listing defines each constant by the value of its setting, or the first malformed one is named. -/
theorem listing_is_exact (document document' : Value) :
    (∀ e, generate (some document) = .error e ↔ FirstMalformed document e) ∧
    ((∀ s ∈ settings, ∀ e, ¬s.Malformed document e) →
      ∃ text, generate (some document) = .ok text ∧ Lists document text) ∧
    (∀ text text', generate (some document) = .ok text → generate (some document') = .ok text' →
      (text = text' ↔ ∀ s ∈ settings, ∀ v, s.Resolves document v ↔ s.Resolves document' v)) ∧
    (settings.map Setting.constant).Nodup ∧ settings.length = 17 := by
  refine ⟨fun e => generate_eq_error_iff, fun hformed => ?_, fun text text' h h' => ?_, by decide, rfl⟩
  · obtain ⟨r, hr⟩ := exists_resolve_iff.2 hformed
    exact ⟨r.listing, generate_eq_ok_iff.2 ⟨r, hr, rfl⟩, lists_listing hr⟩
  · obtain ⟨r, hr, rfl⟩ := generate_eq_ok_iff.1 h
    obtain ⟨r', hr', rfl⟩ := generate_eq_ok_iff.1 h'
    exact listing_eq_iff hr hr'

def crooked : Value :=
  .table
    [("network", .table
      [("eth_mtu", .text "9000"), ("ip_default_ttl", .fraction 12 1), ("arp_cache_size", .integer 16),
        ("default_ip", .text " 010. 0.0.+1\t"), ("default_mac", .array [.integer 2])]),
      ("timeouts", .integer 1000)]

theorem listing_is_exact_crooked : ∃ text, generate (some crooked) = .ok text ∧
    generate (some .empty) = .ok text ∧ Lists crooked text ∧
      ∀ s ∈ settings, ∀ v, s.Resolves crooked v ↔ s.Resolves .empty v := by
  have halike : resolve crooked = resolve .empty := by decide +kernel
  have hgenerate : generate (some crooked) = generate (some .empty) :=
    congrArg (Except.map Resolved.listing) halike
  have hformed : ∀ s ∈ settings, ∀ e, ¬s.Malformed crooked e :=
    exists_resolve_iff.1 ⟨⟨1500, 64, 16, 8, 16, 512, 4096, 0x0A000001, 0x0A000002, 0xFFFFFF00, 0x08080808,
      ⟨0x52, 0x54, 0x00, 0x12, 0x34, 0x56⟩, 1000, 500, 3000, 5000, 3000⟩, by decide +kernel⟩
  obtain ⟨text, htext, hlists⟩ := (listing_is_exact crooked .empty).2.1 hformed
  refine ⟨text, htext, hgenerate ▸ htext, hlists, ?_⟩
  exact ((listing_is_exact crooked .empty).2.2.1 text text htext (hgenerate ▸ htext)).1 rfl

end InetHost.Settings
