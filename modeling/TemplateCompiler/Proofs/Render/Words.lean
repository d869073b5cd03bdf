import TemplateCompiler.Proofs.Render.Subvalues
/-!
# Values as words

The written form of a value, cut into words: what it mentions, and the text between. Reading the words from the left to
the right meets what `Value.trace` lists, in that order.
-/

namespace TemplateCompiler.Render

open TemplateCompiler.Text

/-- A piece of the written form of a value. -/
inductive Word where
  | plain (text : String)
  /-- A helper that is called. -/
  | helper (helper : Helper)
  /-- A name that is declared beside the render function. -/
  | declared (name : String)
  /-- The name that a listener is kept under. -/
  | memo (name : String)

namespace Word

/-- The text of a word. -/
def text : Word → String
  | .plain text => text
  | .helper h => h.localName
  | .declared name => name
  | .memo name => name

/-- What a word mentions. -/
def trace : Word → Trace
  | .plain _ => {}
  | .helper h => { helpers := [h] }
  | .declared name => { names := [name] }
  | .memo name => { memos := [name] }

/-- What some words mention. -/
def traceOf (words : List Word) : Trace :=
  .concat (words.map trace)

theorem traceOf_nil : traceOf [] = {} :=
  rfl

theorem traceOf_cons (w : Word) (ws : List Word) : traceOf (w :: ws) = w.trace ++ traceOf ws :=
  rfl

theorem traceOf_append (ws ws' : List Word) : traceOf (ws ++ ws') = traceOf ws ++ traceOf ws' := by
  induction ws with
  | nil => simp [traceOf]
  | cons w ws ih => simp [traceOf_cons, ih, Trace.append_assoc]

@[simp] theorem text_plain (s : String) : (Word.plain s).text = s := rfl

@[simp] theorem trace_plain (s : String) : (Word.plain s).trace = {} := rfl

@[simp] theorem text_declared (name : String) : (Word.declared name).text = name := rfl

@[simp] theorem text_memo (name : String) : (Word.memo name).text = name := rfl

@[simp] theorem trace_memo (name : String) : (Word.memo name).trace = { memos := [name] } := rfl

attribute [simp] traceOf_nil traceOf_cons traceOf_append

end Word

namespace Value

/-- What is called, as a word. -/
def calleeWord (callee : String) : Word :=
  match Helper.named? callee with
  | some h => .helper h
  | none => .declared callee

mutual
/-- The written form of a value as words. -/
def words : Value → List Word
  | .string s => [.plain (quote s)]
  | .number n => [.plain (toString n)]
  | .bool true => [.plain "true"]
  | .bool false => [.plain "false"]
  | .undefined => [.plain "undefined"]
  | .raw source => [.plain source]
  | .constant name => [.declared name]
  | .array items => .plain "[" :: wordsOfList ", " items ++ [.plain "]"]
  | .object [] => [.plain "{}"]
  | .object (entry :: entries) => .plain "\x7b " :: wordsOfEntries (entry :: entries) ++ [.plain " \x7d"]
  | .call callee arguments => calleeWord callee :: .plain "(" :: wordsOfList ", " arguments ++ [.plain ")"]
  | .function parameters body =>
    .plain ("function (" ++ ", ".intercalate parameters ++ ") \x7b return ") :: body.words ++ [.plain "; \x7d"]
  | .arrow body => .plain "() => " :: body.words
  | .conditional test consequent alternate =>
    test.words ++ .plain " ? " :: consequent.words ++ .plain " : " :: alternate.words
  | .concat parts => wordsOfList " + " parts
  | .memo name value => .memo name :: .plain (" || ($ctx." ++ name ++ " = ") :: value.words ++ [.plain ")"]

/-- The written forms of values as words, with `separator` between them. -/
def wordsOfList (separator : String) : List Value → List Word
  | [] => []
  | [v] => v.words
  | v :: w :: vs => v.words ++ .plain separator :: wordsOfList separator (w :: vs)

/-- The written forms of the entries of an object as words, with commas between them. -/
def wordsOfEntries : List (String × Value) → List Word
  | [] => []
  | [(key, v)] => .plain (keyText key ++ ": ") :: v.words
  | (key, v) :: entry :: entries => .plain (keyText key ++ ": ") :: v.words ++ .plain ", " :: wordsOfEntries (entry :: entries)
end

theorem text_calleeWord (callee : String) : (calleeWord callee).text = callee := by
  unfold calleeWord
  split
  · rename_i h hnamed
    exact Helper.localName_of_named? hnamed
  · rfl

mutual

theorem toList_text : ∀ v : Value, v.text.toList = v.words.flatMap (·.text.toList)
  | .string s => by simp [text, words]
  | .number n => by simp [text, words]
  | .bool true => by simp [text, words]
  | .bool false => by simp [text, words]
  | .undefined => by simp [text, words]
  | .raw source => by simp [text, words]
  | .constant name => by simp [text, words]
  | .array items => by simp [text, words, toList_textOfList]
  | .object [] => by simp [text, words]
  | .object (entry :: entries) => by simp [text, words, toList_textOfEntries]
  | .call callee arguments => by simp [text, words, toList_textOfList, text_calleeWord]
  | .function parameters body => by simp [text, words, toList_text body]
  | .arrow body => by simp [text, words, toList_text body]
  | .conditional test consequent alternate => by
    simp [text, words, toList_text test, toList_text consequent, toList_text alternate]
  | .concat parts => by simp [text, words, toList_textOfList]
  | .memo name value => by simp [text, words, toList_text value]

theorem toList_textOfList (separator : String) : ∀ vs : List Value,
    (textOfList separator vs).toList = (wordsOfList separator vs).flatMap (·.text.toList)
  | [] => rfl
  | [v] => by simp [textOfList, wordsOfList, toList_text v]
  | v :: w :: vs => by simp [textOfList, wordsOfList, toList_text v, toList_textOfList separator (w :: vs)]

theorem toList_textOfEntries : ∀ entries : List (String × Value),
    (textOfEntries entries).toList = (wordsOfEntries entries).flatMap (·.text.toList)
  | [] => rfl
  | [(key, v)] => by simp [textOfEntries, wordsOfEntries, toList_text v]
  | (key, v) :: entry :: entries => by
    simp [textOfEntries, wordsOfEntries, toList_text v, toList_textOfEntries (entry :: entries)]
end

theorem trace_calleeWord (callee : String) (arguments : List Value) :
    (Value.call callee arguments).trace = (calleeWord callee).trace ++ traceOf arguments := by
  unfold calleeWord
  split
  · rename_i h hnamed
    rw [← Helper.localName_of_named? hnamed, trace_call]
    rfl
  · rename_i hnamed
    rw [trace_call_other hnamed]
    rfl

mutual

theorem traceOf_words : ∀ v : Value, Word.traceOf v.words = v.trace
  | .string _ => rfl
  | .number _ => rfl
  | .bool true => rfl
  | .bool false => rfl
  | .undefined => rfl
  | .raw _ => rfl
  | .constant _ => rfl
  | .array items => by
    simp [words, traceOf_wordsOfList]
  | .object [] => rfl
  | .object (entry :: entries) => by
    rw [words, Word.traceOf_append, Word.traceOf_cons, traceOf_wordsOfEntries, trace_object]
    simp
  | .call callee arguments => by
    simp [words, traceOf_wordsOfList,
      trace_calleeWord]
  | .function parameters body => by
    simp [words, traceOf_words body]
  | .arrow body => by
    simp [words, traceOf_words body]
  | .conditional test consequent alternate => by
    simp [words, traceOf_words test, traceOf_words consequent,
      traceOf_words alternate, Trace.append_assoc]
  | .concat parts => by
    simp [words, traceOf_wordsOfList]
  | .memo name value => by
    simp [words, traceOf_words value]

theorem traceOf_wordsOfList (separator : String) : ∀ vs : List Value,
    Word.traceOf (wordsOfList separator vs) = traceOf vs
  | [] => rfl
  | [v] => by simp [wordsOfList, traceOf_words v]
  | v :: w :: vs => by
    rw [wordsOfList, Word.traceOf_append, Word.traceOf_cons, traceOf_words v,
      traceOf_wordsOfList separator (w :: vs), traceOf_cons v]
    simp

theorem traceOf_wordsOfEntries : ∀ entries : List (String × Value),
    Word.traceOf (wordsOfEntries entries) = traceUnder entries
  | [] => rfl
  | [(key, v)] => by simp [wordsOfEntries, traceOf_words v]
  | (key, v) :: entry :: entries => by
    rw [wordsOfEntries, Word.traceOf_append, Word.traceOf_cons, Word.traceOf_cons, traceOf_words v,
      traceOf_wordsOfEntries (entry :: entries), traceUnder_cons (key, v)]
    simp

end

/-- What the written form of a value mentions, from the left to the right. -/
def mentions (v : Value) : Trace :=
  Word.traceOf v.words

theorem mentions_eq (v : Value) : v.mentions = v.trace :=
  traceOf_words v

end Value

end TemplateCompiler.Render
