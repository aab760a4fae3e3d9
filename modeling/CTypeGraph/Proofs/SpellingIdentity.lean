import CTypeGraph.Proofs.PointerChains
import CTypeGraph.Proofs.Recursion

/-!
# What a spelling says about its type

A spelling is meant for people, and nothing in the graph ever reads one. Still most spellings can
be read back. Around `void`, the basic types, the enumerations and the records, which are the cores
of types, there may be pointers and arrays in layers, and each layer is spelled behind what it is
around: a star for a pointer, a count in brackets for an array. So the last character tells which
layer is outermost, and a core, which ends neither in a star nor in a bracket, tells that there is
none. The cores are told apart by their words, or by the handle that is shown in them.

Two kinds of core do not say what they are. An unsigned floating type is spelled like a signed one.
And a function is spelled with its result at the end, so that what stands behind the result may
belong to the result or be around the function. All other types that are spelled the same are built
in the same layers around one and the same core, and are therefore the same type, though they may
have been made at different times and have different handles.
-/

namespace CTypeGraph

/-! ## Taking texts apart -/

/-- What is behind the last occurrence of a mark is found by reading backwards up to the mark. -/
theorem takeWhile_reverse_divided {mark : Char} (before : List Char) {behind : List Char}
    (absent : mark ∉ behind) :
    (before ++ mark :: behind).reverse.takeWhile (· != mark) = behind.reverse := by
  have passed : ∀ other ∈ behind.reverse, (other != mark) = true := by
    intro other within
    rw [bne_iff_ne]
    rintro rfl
    exact absent (List.mem_reverse.mp within)
  rw [List.reverse_append, List.reverse_cons, List.append_assoc,
    List.takeWhile_append_of_pos passed, List.singleton_append,
    List.takeWhile_cons_of_neg (by simp), List.append_nil]

/-- Texts that are divided by the last occurrence of a mark are equal part by part. -/
theorem eq_and_eq_of_divided {mark : Char} {divider : String} (single : divider.toList = [mark])
    {before before' behind behind' : String}
    (same : before ++ (divider ++ behind) = before' ++ (divider ++ behind'))
    (absent : mark ∉ behind.toList) (absent' : mark ∉ behind'.toList) :
    before = before' ∧ behind = behind' := by
  have listed : before.toList ++ mark :: behind.toList =
      before'.toList ++ mark :: behind'.toList := by
    simpa [single] using congrArg String.toList same
  have tails : behind.toList.reverse = behind'.toList.reverse := by
    rw [← takeWhile_reverse_divided before.toList absent, listed,
      takeWhile_reverse_divided before'.toList absent']
  obtain rfl : behind = behind' := String.toList_inj.mp (List.reverse_injective tails)
  exact ⟨(String.append_left_inj _).mp same, rfl⟩

/-- Marks that a check does not find in a text are not in it. The check goes through the marks
given, and never through all there are. -/
theorem not_mem_of_all {marks : List Char} {text : String}
    (checked : marks.all (· ∉ text.toList) = true) : ∀ mark ∈ marks, mark ∉ text.toList := by
  intro mark within
  exact of_decide_eq_true (List.all_eq_true.mp checked mark within)

/-- A number is spelled with digits, so that another mark must be in what follows it. -/
theorem not_mem_repr_append {mark : Char} (notDigit : mark.isDigit = false) {behind : String}
    (absent : mark ∉ behind.toList) (number : Nat) : mark ∉ (number.repr ++ behind).toList := by
  rw [String.toList_append, Nat.toList_repr, List.mem_append]
  rintro (within | within)
  · have digit : mark.isDigit = true :=
      Nat.isDigit_of_mem_toDigits (by decide) (by decide) within
    rw [notDigit] at digit
    cases digit
  · exact absent within

/-- Different numbers are spelled differently. -/
theorem eq_of_repr_eq {number other : Nat} (same : number.repr = other.repr) : number = other := by
  have digits : Nat.toDigits 10 number = Nat.toDigits 10 other := by
    rw [← Nat.toList_repr, ← Nat.toList_repr, same]
  calc number = Nat.ofDigitChars 10 (Nat.toDigits 10 number) 0 :=
      Nat.ofDigitChars_ten_toDigits.symm
    _ = Nat.ofDigitChars 10 (Nat.toDigits 10 other) 0 := by rw [digits]
    _ = other := Nat.ofDigitChars_ten_toDigits

/-! ## Layers around a core -/

/-- What may be around a type and is spelled behind it. -/
inductive Layer where
  | pointer
  | array (count : UInt64)
  deriving DecidableEq, Repr

namespace Layer

/-- What the layer puts behind the spelling of the type in it. -/
def suffix : Layer → String
  | .pointer => " *"
  | .array count => "[" ++ toString count ++ "]"

/-- The node that puts the layer around a type. -/
def around : Layer → Handle → Node
  | .pointer, pointee => .pointer pointee
  | .array count, element => .array element count

/-- The last character of the suffix. -/
def closing : Layer → Char
  | .pointer => '*'
  | .array _ => ']'

/-- The last characters of all suffixes. -/
def closings : List Char :=
  ['*', ']']

/-- Each layer is closed by one of these characters. -/
theorem closing_mem (layer : Layer) : layer.closing ∈ closings := by
  cases layer with
  | pointer => exact List.mem_cons_self
  | array => exact List.mem_cons_of_mem _ List.mem_cons_self

/-- A text with the suffix of a layer ends in what closes the layer. -/
theorem getLast?_suffix (layer : Layer) (text : String) :
    (text ++ layer.suffix).toList.getLast? = some layer.closing := by
  cases layer with
  | pointer => simp [suffix, closing]
  | array count =>
    rw [suffix, String.toList_append, String.toList_append, ← List.append_assoc]
    exact List.getLast?_concat

/-- Texts with suffixes are equal only if the texts are, and the layers. -/
theorem suffix_inj {layer other : Layer} {text text' : String}
    (same : text ++ layer.suffix = text' ++ other.suffix) : text = text' ∧ layer = other := by
  have closings : layer.closing = other.closing := by
    have last := layer.getLast?_suffix text
    rw [same, other.getLast?_suffix, Option.some.injEq] at last
    exact last.symm
  cases layer with
  | pointer =>
    cases other with
    | pointer => exact ⟨(String.append_left_inj _).mp same, rfl⟩
    | array => simp [closing] at closings
  | array count =>
    cases other with
    | pointer => simp [closing] at closings
    | array count' =>
      -- The bracket that opens the count is the last one of its kind.
      have absent : ∀ number : UInt64, '[' ∉ (toString number ++ "]").toList :=
        fun number => not_mem_repr_append rfl (by decide) number.toNat
      have divided : text ++ ("[" ++ (toString count ++ "]")) =
          text' ++ ("[" ++ (toString count' ++ "]")) := by
        simpa only [suffix, String.append_assoc] using same
      obtain ⟨texts, counts⟩ := eq_and_eq_of_divided rfl divided (absent count) (absent count')
      have numbers : count.toNat = count'.toNat :=
        eq_of_repr_eq ((String.append_left_inj _).mp counts)
      exact ⟨texts, by rw [UInt64.toNat_inj.mp numbers]⟩

end Layer

/-- The spelling of a core in layers, the outermost of which comes first. -/
def spelledIn (core : String) : List Layer → String
  | [] => core
  | layer :: inner => spelledIn core inner ++ layer.suffix

/-- No layer ends with a character of the text. -/
def Unclosed (text : String) : Prop :=
  ∀ mark ∈ Layer.closings, mark ∉ text.toList

/-- Spelled layers can be read back, around cores that no layer could end with. By induction from
the outermost layer inwards. -/
theorem spelledIn_inj {core core' : String} {layers layers' : List Layer}
    (unclosed : Unclosed core) (unclosed' : Unclosed core')
    (same : spelledIn core layers = spelledIn core' layers') : layers = layers' ∧ core = core' := by
  -- A core with and one without layers differ in the last character.
  have apart : ∀ {core core' : String} (layer : Layer) (inner : List Layer), Unclosed core →
      core ≠ spelledIn core' inner ++ layer.suffix := by
    rintro core core' layer inner unclosed rfl
    exact unclosed _ layer.closing_mem (List.mem_of_getLast? (layer.getLast?_suffix _))
  induction layers generalizing layers' with
  | nil =>
    cases layers' with
    | nil => exact ⟨rfl, same⟩
    | cons layer inner => exact absurd same (apart layer inner unclosed)
  | cons layer inner inductionHypothesis =>
    cases layers' with
    | nil => exact absurd same.symm (apart layer inner unclosed')
    | cons layer' inner' =>
      obtain ⟨texts, rfl⟩ := Layer.suffix_inj same
      obtain ⟨rfl, cores⟩ := inductionHypothesis texts
      exact ⟨rfl, cores⟩

namespace Node

/-- Whether the type is a core, with nothing around it. -/
def isCore : Node → Bool
  | .pointer _ | .array .. => false
  | .void | .basic _ | .enumeration | .function _ | .record _ => true

/-- Whether the spelling of a core says all about it. -/
def isTold : Node → Bool
  | .basic type => type.signed || type.kind.isInteger
  | .function _ => false
  | .void | .enumeration | .record _ | .pointer _ | .array .. => true

/-- The spelling of a core that is always spelled in the same way. -/
def words? : Node → Option String
  | .void => some "void"
  | .basic type => some type.spelling
  | .enumeration | .function _ | .record _ | .pointer _ | .array .. => none

/-- The keyword in front of the handle of a core that is spelled with its handle. -/
def keyword? : Node → Option String
  | .enumeration => some "enum"
  | .record contents => some contents.keyword
  | .void | .basic _ | .function _ | .pointer _ | .array .. => none

/-- What is told by words is shared, since nothing else could tell two of the kind apart. -/
theorem isShared_of_words? {node : Node} {text : String} (words : node.words? = some text) :
    node.isShared = true := by
  cases node with
  | void | basic => rfl
  | enumeration | function | record | pointer | array => cases words

/-- All nodes that are told by words. -/
def worded : List Node :=
  .void :: (BasicKind.all.map fun kind => .basic ⟨kind, true⟩) ++
    (BasicKind.all.filter BasicKind.isInteger).map fun kind => .basic ⟨kind, false⟩

/-- A node that is told, and told by words, is listed. -/
theorem mem_worded {node : Node} {text : String} (told : node.isTold = true)
    (words : node.words? = some text) : node ∈ worded := by
  cases node with
  | void => decide
  | basic type =>
    obtain ⟨kind, signed⟩ := type
    cases signed with
    | true => cases kind <;> decide
    | false =>
      cases kind with
      | char | short | int | long | longLong => decide
      | float | double | longDouble => cases told
  | enumeration | function | record | pointer | array => cases words

/-- No two of them are told by the same words. -/
theorem eq_of_words?_eq {node other : Node} {text : String} (told : node.isTold = true)
    (told' : other.isTold = true) (words : node.words? = some text)
    (words' : other.words? = some text) : node = other := by
  have distinct : ∀ one ∈ worded, ∀ another ∈ worded, one.words? = another.words? →
      one = another := by
    decide +kernel
  exact distinct node (mem_worded told words) other (mem_worded told' words')
    (words.trans words'.symm)

/-- Words have no number sign in them, and nothing that a layer ends with. -/
theorem not_mem_words {node : Node} {text : String} (told : node.isTold = true)
    (words : node.words? = some text) {mark : Char} (foreign : mark ∈ '#' :: Layer.closings) :
    mark ∉ text.toList := by
  have plain : ∀ one ∈ worded, ∀ text ∈ one.words?,
      ('#' :: Layer.closings).all (· ∉ text.toList) = true := by
    decide +kernel
  exact not_mem_of_all (plain node (mem_worded told words) text words) mark foreign

end Node

namespace Layer

variable {layer layer' : Layer} {inner inner' : Handle}

/-- What is not a core is a layer around another type. -/
theorem exists_around {node : Node} (layered : node.isCore = false) :
    ∃ layer inner, node = Layer.around layer inner := by
  cases node with
  | pointer pointee => exact ⟨.pointer, pointee, rfl⟩
  | array element count => exact ⟨.array count, element, rfl⟩
  | void | basic | enumeration | function | record => cases layered

/-- A layer around a type is not a core. -/
theorem isCore_around (layer : Layer) (inner : Handle) : (layer.around inner).isCore = false := by
  cases layer <;> rfl

/-- The node tells the layer and what is in it. -/
theorem around_inj (same : layer.around inner = layer'.around inner') :
    layer = layer' ∧ inner = inner' := by
  cases layer <;> cases layer' <;> cases same <;> exact ⟨rfl, rfl⟩

/-- What is in a layer is the one part of the node. -/
theorem parts_around (layer : Layer) (inner : Handle) : (layer.around inner).parts = [inner] := by
  cases layer <;> rfl

end Layer

namespace Graph

variable {graph : Graph} {type core : Handle} {layers : List Layer}

/-- The type is built around the core in these layers, the outermost of which comes first. They
are found by going from pointers to pointees and from arrays to elements. -/
inductive Layered (graph : Graph) : List Layer → Handle → Handle → Prop
  | core {type : Handle} (bare : (graph.node type).isCore = true) : Layered graph [] type type
  | layer {layer : Layer} {layers : List Layer} {type inner core : Handle}
      (outermost : graph.node type = layer.around inner)
      (rest : Layered graph layers core inner) : Layered graph (layer :: layers) core type

/-- The core of the type is one whose spelling says all about it. -/
def Told (graph : Graph) (type : Handle) : Prop :=
  ∀ layers core, graph.Layered layers core type → (graph.node core).isTold = true

/-- What is in a layer was there before it. -/
theorem Ordered.inner_earlier (ordered : graph.Ordered) {layer : Layer} {inner : Handle}
    (outermost : graph.node type = layer.around inner) : inner.index < type.index := by
  apply ordered.earlier
  · intro contents there
    have core := Layer.isCore_around layer inner
    rw [← outermost, there] at core
    cases core
  · rw [outermost, Layer.parts_around]
    exact List.mem_singleton_self inner

/-- Every type is built in layers around a core. -/
theorem Ordered.exists_layered (ordered : graph.Ordered) (type : Handle) :
    ∃ layers core, graph.Layered layers core type := by
  induction place : type.index using Nat.strongRecOn generalizing type with
  | ind _ inductionHypothesis =>
    cases bare : (graph.node type).isCore with
    | true => exact ⟨[], type, .core bare⟩
    | false =>
      obtain ⟨layer, inner, outermost⟩ := Layer.exists_around bare
      obtain ⟨layers, core, rest⟩ :=
        inductionHypothesis _ (place ▸ ordered.inner_earlier outermost) inner rfl
      exact ⟨layer :: layers, core, .layer outermost rest⟩

namespace Layered

/-- There is nothing around a core. -/
theorem isCore (built : graph.Layered layers core type) : (graph.node core).isCore = true := by
  induction built with
  | core bare => exact bare
  | layer _ _ inductionHypothesis => exact inductionHypothesis

/-- A type is built in one way. -/
theorem unique (built : graph.Layered layers core type) {layers' : List Layer} {core' : Handle}
    (built' : graph.Layered layers' core' type) : layers = layers' ∧ core = core' := by
  have apart : ∀ {type : Handle} {layer : Layer} {inner : Handle},
      graph.node type = layer.around inner → (graph.node type).isCore = true → False := by
    intro type layer inner outermost bare
    rw [outermost, Layer.isCore_around] at bare
    cases bare
  induction built generalizing layers' core' with
  | core bare =>
    cases built' with
    | core => exact ⟨rfl, rfl⟩
    | layer outermost => exact (apart outermost bare).elim
  | layer outermost _ inductionHypothesis =>
    cases built' with
    | core bare => exact (apart outermost bare).elim
    | layer outermost' rest' =>
      obtain ⟨rfl, rfl⟩ := Layer.around_inj (outermost.symm.trans outermost')
      obtain ⟨rfl, cores⟩ := inductionHypothesis rest'
      exact ⟨rfl, cores⟩

/-- So a type has one core, and is told if that is. -/
theorem told (built : graph.Layered layers core type)
    (isTold : (graph.node core).isTold = true) : graph.Told type := by
  intro layers' core' built'
  rw [← (built.unique built').2]
  exact isTold

/-- The core of a type of the graph is one of the graph. -/
theorem present (built : graph.Layered layers core type) (ordered : graph.Ordered)
    (there : type.index < graph.size) : core.index < graph.size := by
  induction built with
  | core => exact there
  | layer outermost _ inductionHypothesis =>
    exact inductionHypothesis (Nat.lt_trans (ordered.inner_earlier outermost) there)

/-- Types that are built around one core in the same layers are the same. Their handles may
differ, since an array is new each time it is made. -/
theorem confirmed (built : graph.Layered layers core type) {other : Handle}
    (built' : graph.Layered layers core other) :
    graph.Confirmed graph.comparisonSteps .followed type other := by
  induction built generalizing other with
  | core =>
    cases built' with
    | core => exact confirmed_self
  | @layer layer _ _ _ _ outermost _ inductionHypothesis =>
    cases built' with
    | layer outermost' rest' =>
      rw [confirmed_iff_alike, outermost, outermost']
      cases layer with
      | pointer => exact .pointees not_fixed_followed (inductionHypothesis rest')
      | array => exact .arrays

end Layered

/-! ## Spellings of layers and cores -/

/-- A core that is told by words is spelled by them. -/
theorem spelling_of_words? {text : String} (words : (graph.node type).words? = some text) :
    graph.spelling type = text := by
  unfold spelling spellingWithin
  cases there : graph.node type with
  | void | basic =>
    rw [there] at words
    exact Option.some.inj words
  | enumeration | function | record | pointer | array =>
    rw [there] at words
    cases words

/-- A core that is told by its handle shows it behind the keyword. -/
theorem spelling_of_keyword? {keyword : String}
    (shown : (graph.node type).keyword? = some keyword) :
    graph.spelling type = keyword ++ " <" ++ ("#" ++ (type.index.repr ++ ">")) := by
  unfold spelling spellingWithin
  cases there : graph.node type with
  | enumeration =>
    rw [there] at shown
    cases shown
    have front : "enum <" = "enum" ++ " <" := by decide
    simp only [toString, Handle.text, Option.getD_some, front, String.append_assoc]
  | record =>
    rw [there] at shown
    cases shown
    simp only [toString, Handle.text, Option.getD_some, String.append_assoc]
  | void | basic | function | pointer | array =>
    rw [there] at shown
    cases shown

/-- A layer is spelled behind what is in it. -/
theorem Ordered.spelling_around (ordered : graph.Ordered) {layer : Layer} {inner : Handle}
    (outermost : graph.node type = layer.around inner) :
    graph.spelling type = graph.spelling inner ++ layer.suffix := by
  have found : graph.spellingWithin type.index inner = some (graph.spelling inner) :=
    ordered.spellingWithin_eq_some (ordered.inner_earlier outermost)
  rw [spelling, spellingWithin, outermost]
  cases layer with
  | array count =>
    simp only [Layer.around, Layer.suffix, found, Option.map_some, Option.getD_some,
      ← String.append_assoc]
    rfl
  | pointer =>
    cases there : graph.node inner with
    | record contents =>
      -- In front of a record the spelling stops, and shows what the record would show.
      have shown := spelling_of_keyword? (congrArg Node.keyword? there)
      simp only [Layer.around, Layer.suffix, there, shown, Option.getD_some, String.append_assoc]
      rfl
    | void | basic | enumeration | function | pointer | array =>
      simp only [Layer.around, Layer.suffix, there, found, Option.map_some, Option.getD_some]

/-- A type is spelled as its core in its layers. -/
theorem Layered.spelling_eq (built : graph.Layered layers core type) (ordered : graph.Ordered) :
    graph.spelling type = spelledIn (graph.spelling core) layers := by
  induction built with
  | core => rfl
  | layer outermost _ inductionHypothesis =>
    rw [ordered.spelling_around outermost, inductionHypothesis, spelledIn]

/-- A core that is told is told by words or by its handle. -/
theorem words_or_keyword {node : Node} (bare : node.isCore = true) (told : node.isTold = true) :
    (∃ text, node.words? = some text) ∨ ∃ keyword, node.keyword? = some keyword := by
  cases node with
  | void | basic => exact Or.inl ⟨_, rfl⟩
  | enumeration | record => exact Or.inr ⟨_, rfl⟩
  | function => cases told
  | pointer | array => cases bare

/-- Nothing that a layer ends with is in a keyword. -/
theorem unclosed_keyword {node : Node} {keyword : String}
    (shown : node.keyword? = some keyword) : Unclosed keyword := by
  have plain : ∀ keyword ∈ ["enum", "struct", "union"],
      Layer.closings.all (· ∉ keyword.toList) = true := by
    decide +kernel
  apply not_mem_of_all
  apply plain
  cases node with
  | enumeration =>
    cases shown
    decide
  | record contents =>
    cases shown
    unfold Record.keyword
    cases contents.isUnion <;> decide
  | void | basic | function | pointer | array => cases shown

/-- No layer could end with the spelling of a core that is told. -/
theorem unclosed_spelling (bare : (graph.node core).isCore = true)
    (told : (graph.node core).isTold = true) : Unclosed (graph.spelling core) := by
  intro mark closes
  rcases words_or_keyword bare told with ⟨text, words⟩ | ⟨keyword, shown⟩
  · rw [spelling_of_words? words]
    exact Node.not_mem_words told words (List.mem_cons_of_mem _ closes)
  · have digits : Layer.closings.all (·.isDigit = false) = true := by decide
    have notDigit : mark.isDigit = false :=
      of_decide_eq_true (List.all_eq_true.mp digits mark closes)
    have notDivider : mark ∉ (" <" ++ "#").toList :=
      not_mem_of_all (by decide +kernel) mark closes
    have notEnd : mark ∉ ">".toList := not_mem_of_all (by decide +kernel) mark closes
    have number := not_mem_repr_append notDigit notEnd core.index
    have front := unclosed_keyword shown mark closes
    rw [spelling_of_keyword? shown]
    simp only [String.toList_append, List.mem_append, not_or] at number notDivider ⊢
    exact ⟨⟨front, notDivider.1⟩, notDivider.2, number⟩

/-- Cores that are told are told apart by their spellings. -/
theorem Canonical.core_eq (canonical : graph.Canonical) {other : Handle}
    (present : core.index < graph.size) (present' : other.index < graph.size)
    (bare : (graph.node core).isCore = true) (bare' : (graph.node other).isCore = true)
    (told : (graph.node core).isTold = true) (told' : (graph.node other).isTold = true)
    (same : graph.spelling core = graph.spelling other) : core = other := by
  -- What shows a handle shows a number sign, and words do not.
  have apart : ∀ {one another : Handle} {text keyword : String},
      (graph.node one).isTold = true → (graph.node one).words? = some text →
      (graph.node another).keyword? = some keyword →
      graph.spelling one ≠ graph.spelling another := by
    intro one another text keyword toldOne words shown same
    apply Node.not_mem_words toldOne words List.mem_cons_self
    rw [← spelling_of_words? words, same, spelling_of_keyword? shown]
    simp
  rcases words_or_keyword bare told with ⟨text, words⟩ | ⟨keyword, shown⟩
  · rcases words_or_keyword bare' told' with ⟨text', words'⟩ | ⟨keyword', shown'⟩
    · have texts : text = text' := by
        rw [← spelling_of_words? words, same, spelling_of_words? words']
      subst texts
      have nodes : graph.node core = graph.node other :=
        Node.eq_of_words?_eq told told' words words'
      exact canonical.unique present present' (Node.isShared_of_words? words) nodes
    · exact absurd same (apart told words shown')
  · rcases words_or_keyword bare' told' with ⟨text', words'⟩ | ⟨keyword', shown'⟩
    · exact absurd same.symm (apart told' words' shown)
    · rw [spelling_of_keyword? shown, spelling_of_keyword? shown'] at same
      have absent : ∀ number : Nat, '#' ∉ (number.repr ++ ">").toList :=
        not_mem_repr_append rfl (by decide)
      obtain ⟨_, numbers⟩ := eq_and_eq_of_divided rfl same (absent _) (absent _)
      exact congrArg Handle.mk (eq_of_repr_eq ((String.append_left_inj _).mp numbers))

/-- In a reachable graph every type is built in one way, in layers around a core. Types whose cores
are told are spelled the same exactly when they are built in the same layers around one core, and
then they are the same type. -/
theorem Reachable.spelling_identifies (reachable : graph.Reachable) :
    (∀ type : Handle, ∃ layers core, graph.Layered layers core type ∧
      ∀ layers' core', graph.Layered layers' core' type → layers' = layers ∧ core' = core) ∧
    ∀ left right : Handle, left.index < graph.size → right.index < graph.size →
      graph.Told left → graph.Told right →
      (graph.spelling left = graph.spelling right ↔
        ∃ layers core, graph.Layered layers core left ∧ graph.Layered layers core right) ∧
      (graph.spelling left = graph.spelling right → graph.sameType left right = true) := by
  have ordered : graph.Ordered := reachable.ordered
  refine ⟨fun type => ?_, ?_⟩
  · obtain ⟨layers, core, built⟩ := ordered.exists_layered type
    refine ⟨layers, core, built, fun layers' core' built' => built'.unique built⟩
  · intro left right present present' told told'
    obtain ⟨layers, core, built⟩ := ordered.exists_layered left
    obtain ⟨layers', core', built'⟩ := ordered.exists_layered right
    have read : graph.spelling left = graph.spelling right →
        ∃ layers core, graph.Layered layers core left ∧ graph.Layered layers core right := by
      intro same
      rw [built.spelling_eq ordered, built'.spelling_eq ordered] at same
      obtain ⟨rfl, cores⟩ := spelledIn_inj
        (unclosed_spelling built.isCore (told _ _ built))
        (unclosed_spelling built'.isCore (told' _ _ built')) same
      obtain rfl := reachable.canonical.core_eq (built.present ordered present)
        (built'.present ordered present') built.isCore built'.isCore (told _ _ built)
        (told' _ _ built') cores
      exact ⟨layers, core, built, built'⟩
    refine ⟨⟨read, ?_⟩, fun same => ?_⟩
    · rintro ⟨layers, core, built, built'⟩
      rw [built.spelling_eq ordered, built'.spelling_eq ordered]
    · obtain ⟨layers, core, built, built'⟩ := read same
      exact sameType_eq_true_iff.mpr (built.confirmed built')

end Graph

/-! ## Types built alike at different times -/

/-- The types are, in order: a union and the pointer to it; an array of three such pointers and the
pointer to the array; the same once more, which gives another array and another pointer; and an
array of twelve of the first and one of twelve of the second of these pointers. -/
def layeredGraph : Graph :=
  (Graph.empty .lp64).after
    [.makeRecord true, .internPointer ⟨0⟩, .makeArray ⟨1⟩ 3, .internPointer ⟨2⟩,
      .makeArray ⟨1⟩ 3, .internPointer ⟨4⟩, .makeArray ⟨3⟩ 12, .makeArray ⟨5⟩ 12]

/-- The last two arrays have nothing in common but the union and the pointer to it. They are
spelled the same, so they are built in the same four layers, and are the same type. -/
theorem layered_spelling_identifies :
    layeredGraph.Reachable ∧ layeredGraph.Told ⟨6⟩ ∧ layeredGraph.Told ⟨7⟩ ∧
      layeredGraph.spelling ⟨6⟩ = "union <#0> *[3] *[12]" ∧
      layeredGraph.spelling ⟨7⟩ = "union <#0> *[3] *[12]" ∧
      (∃ layers core, layeredGraph.Layered layers core ⟨6⟩ ∧
        layeredGraph.Layered layers core ⟨7⟩) ∧
      layeredGraph.Layered [.array 12, .pointer, .array 3, .pointer] ⟨0⟩ ⟨6⟩ ∧
      layeredGraph.sameType ⟨6⟩ ⟨7⟩ = true := by
  have reachable : layeredGraph.Reachable := ⟨.lp64, Graph.evolves_after (by decide +kernel)⟩
  have shared : layeredGraph.Layered [.pointer] ⟨0⟩ ⟨1⟩ :=
    .layer (by decide +kernel) (.core (by decide +kernel))
  have row : layeredGraph.Layered [.array 3, .pointer] ⟨0⟩ ⟨2⟩ :=
    .layer (by decide +kernel) shared
  have row' : layeredGraph.Layered [.array 3, .pointer] ⟨0⟩ ⟨4⟩ :=
    .layer (by decide +kernel) shared
  have cursor : layeredGraph.Layered [.pointer, .array 3, .pointer] ⟨0⟩ ⟨3⟩ :=
    .layer (by decide +kernel) row
  have cursor' : layeredGraph.Layered [.pointer, .array 3, .pointer] ⟨0⟩ ⟨5⟩ :=
    .layer (by decide +kernel) row'
  have first : layeredGraph.Layered [.array 12, .pointer, .array 3, .pointer] ⟨0⟩ ⟨6⟩ :=
    .layer (by decide +kernel) cursor
  have second : layeredGraph.Layered [.array 12, .pointer, .array 3, .pointer] ⟨0⟩ ⟨7⟩ :=
    .layer (by decide +kernel) cursor'
  have told : layeredGraph.Told ⟨6⟩ := first.told (by decide +kernel)
  have told' : layeredGraph.Told ⟨7⟩ := second.told (by decide +kernel)
  have spelled : layeredGraph.spelling ⟨6⟩ = "union <#0> *[3] *[12]" := by decide +kernel
  have spelled' : layeredGraph.spelling ⟨7⟩ = "union <#0> *[3] *[12]" := by decide +kernel
  obtain ⟨_, identifies⟩ := reachable.spelling_identifies
  obtain ⟨built, same⟩ :=
    identifies ⟨6⟩ ⟨7⟩ (by decide +kernel) (by decide +kernel) told told'
  have alike : layeredGraph.spelling ⟨6⟩ = layeredGraph.spelling ⟨7⟩ := spelled.trans spelled'.symm
  exact ⟨reachable, told, told', spelled, spelled', built.mp alike, first, same alike⟩

/-! ## Cores that are not told -/

/-- The types are, in order: `int`, a function that gives it and the pointer to that function; the
pointer to `int` and a function that gives that; and `float` with and without the unsigned mark. -/
def mumbledGraph : Graph :=
  (Graph.empty .lp64).after
    [.internBasic ⟨.int, true⟩, .makeFunction ⟨⟨0⟩, [], false⟩, .internPointer ⟨1⟩,
      .internPointer ⟨0⟩, .makeFunction ⟨⟨3⟩, [], false⟩,
      .internBasic ⟨.float, true⟩, .internBasic ⟨.float, false⟩]

/-- The pointer to a function and the function that gives a pointer are spelled the same, and so
are the two floating types, and neither are the same. -/
example :
    mumbledGraph.spelling ⟨2⟩ = "fn() -> int *" ∧ mumbledGraph.spelling ⟨4⟩ = "fn() -> int *" ∧
      mumbledGraph.sameType ⟨2⟩ ⟨4⟩ = false ∧
      mumbledGraph.spelling ⟨5⟩ = "float" ∧ mumbledGraph.spelling ⟨6⟩ = "float" ∧
      mumbledGraph.sameType ⟨5⟩ ⟨6⟩ = false := by
  decide +kernel

end CTypeGraph
