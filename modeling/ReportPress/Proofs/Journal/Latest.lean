/-!
# What was said last

Some items say something and the others do not. What counts is the last that was said, and a value
to begin with as long as nothing was. One more item changes it only by saying something.
-/

namespace ReportPress

/-- Of the values that some items have, the last item has the last, if it has one. -/
theorem getLastD_filterMap_concat {α β : Type} (f : α → Option β) (items : List α) (last : α)
    (default : β) :
    ((items ++ [last]).filterMap f).getLastD default
      = (f last).getD ((items.filterMap f).getLastD default) := by
  cases h : f last <;> simp [h]

end ReportPress
