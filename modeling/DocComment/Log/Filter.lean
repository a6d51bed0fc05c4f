import DocComment.Log.Directive

/-! Filters for log records. A filter is a list of directives, and the most specific directive about
a record decides. Records that no directive is about are not shown. -/
namespace DocComment

abbrev LogFilter := List Directive

namespace LogFilter

/-- What is shown where nothing else is asked for. -/
def standard : LogFilter := [{ limit := some .warn }]

/-- Reads directives separated by commas. -/
def read (text : Text) : Option LogFilter :=
  (((Text.cut ',' text).filter (· ≠ [])).mapM Directive.read).map List.flatten

/-- The filter for a setting. One that is missing or not right counts as the standard filter. -/
def ofSetting (setting : Option Text) : LogFilter := (setting.bind read).getD standard

/-- The most specific directive about a record; of those that are equally specific, the last. -/
def decisive? (f : LogFilter) (r : LogRecord) : Option Directive :=
  (f.filter fun d => d.isAbout r).foldl (fun best d =>
    match best with
    | some b => if compare d.key b.key = .lt then some b else some d
    | none => some d) none

def shows (f : LogFilter) (r : LogRecord) : Bool :=
  (f.decisive? r).any fun d => Level.shown d.limit r.level

end LogFilter
end DocComment
