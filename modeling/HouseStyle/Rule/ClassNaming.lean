/-
HouseStyle.Rule.ClassNaming — every class fits the taxonomy of class names.

A class name is written out after a dot, or it is glued together: a `&-suffix` in a nested block
stands for the class of the enclosing block with the suffix added. Which class that is must be
clear: each block on the way up has one selector, and all but the last are nothing but a suffix.
The walk down the blocks carries that class with it (`inherited`), so no block is looked at twice.
Classes inside at-rule blocks are not looked at.
-/
import HouseStyle.ClassName
import HouseStyle.Rule.Finding

namespace HouseStyle

namespace ClassNaming

/-- The class that `&` stands for inside a ruleset with these selectors, where `outer` is what it
stands for around the ruleset. -/
def classInside (selectors : List Selector) (outer : Option Text) : Option Text :=
  match selectors with
  | [selector] =>
    match selector.compounds.getLast? with
    | none => none
    | some last =>
      match last.classes.getLast? with
      | some name => some name
      | none =>
        if selector.compounds.length = 1 && !last.parentSuffix.isEmpty then
          outer.map (· ++ last.parentSuffix)
        else none
  | _ => none

/-- The class that `&` stands for around every node of a forest, in order of their numbers. -/
def inherited (outer : Option Text) : Forest → List (Option Text)
  | .nil => []
  | .node b children siblings =>
    let inner := if b.isRuleset then classInside b.selectors outer else outer
    outer :: (inherited inner children ++ inherited outer siblings)

/-- The class that `&` stands for in a block with these rulesets around it, from the inside out. -/
def trailingClass : List Node → Option Text
  | [] => none
  | ruleset :: outer => classInside ruleset.selectors (trailingClass outer)

/-- The suffix with which a selector starts, empty if it starts with none. -/
def leadingSuffix (selector : Selector) : Text :=
  match selector.compounds with
  | [] => []
  | c :: _ => c.parentSuffix

/-- The class names of a selector in a place where `&` stands for a class: the one that it glues
together, then its own. -/
def resolvedNames (outer : Option Text) (selector : Selector) : List Text :=
  let suffix := leadingSuffix selector
  match outer with
  | some base =>
    if suffix.isEmpty then selector.classNames else (base ++ suffix) :: selector.classNames
  | none => selector.classNames

def classesOf (n : Node) (outer : Option Text) : List (Node × Selector × ClassName) :=
  n.selectors.flatMap fun selector =>
    (resolvedNames outer selector).map fun name => (n, selector, ClassName.classify name)

/-- Every class outside at-rule blocks: its ruleset, its selector, and the class taken apart. -/
def classes (s : Stylesheet) : List (Node × Selector × ClassName) :=
  ((s.nodes.zip (inherited none s.forest)).filter fun (n, _) => n.isRuleset && !n.inAtRule).flatMap
    fun (n, outer) => classesOf n outer

def columnOf (selector : Selector) (name : Text) : Nat :=
  selector.column + (Text.offsetOf? ('.' :: name) selector.text).getD 0

/-- The class is neither classified nor allowed. -/
def isUnknown (o : Options) (c : ClassName) : Bool :=
  !c.isClassified && !o.allowlist.contains c.raw.shown

def finding (s : Stylesheet) (selector : Selector) (c : ClassName) : Diagnostic :=
  s.finding .unknownNamingPattern selector.line (columnOf selector c.raw)
    (s!"Class '.{c.raw.shown}' does not match any naming pattern " ++
      "(Component, SubComponent, Modifier, State, Helper or HelperModifier).")
    (some <| "Rename it, e.g. 'ComponentName', 'ComponentName-part', " ++
      "'ComponentName--modifier', 'is-state' or 'subject-helper'.")

/-- Classes that fit no pattern, unless the stylesheet or the class is exempt. -/
def check (s : Stylesheet) (o : Options) : List Diagnostic :=
  if o.vendorExempt then []
  else
    ((classes s).filter fun (_, _, c) => isUnknown o c).map fun (_, selector, c) =>
      finding s selector c

end ClassNaming

end HouseStyle
