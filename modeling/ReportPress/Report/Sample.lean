/-!
# Sample reports

Markup for trying things out. The samples use most of the vocabulary between them and need no files.
Below, `«` and `»` stand for the marks around a tag.
-/

namespace ReportPress.Sample

def marks : Char → List Char
  | '«' => ['\x7b', '$']
  | '»' => ['\x7d']
  | c => [c]

/-- The markup of the lines of a sample, each with a line feed. -/
def ofLines (lines : List String) : String :=
  String.ofList (lines.flatMap fun line ↦ line.toList.flatMap marks ++ ['\n'])

/-- An invoice: a box around the heads, columns, and a line under the titles. -/
def invoice : String := ofLines [
  "«PRINTINIT»«COPIES(2)»«SETFONT16»«BOLDON»Invoice #2024-001«BOLDOFF»«SETFONT10»",
  "",
  "«BOXS(head)»«PUSHPOS»«DOWN(1)»«B1»From:«B0»«RIGHT(40)»«B1»To:«B0»",
  "Acme Corp«RIGHT(40)»Client Inc",
  "123 Business St«RIGHT(40)»456 Client Ave",
  "New York, NY 10001«RIGHT(40)»Los Angeles, CA 90001",
  "«MR(530,0)»«RBOXE(head)»«POPPOS»«DOWN(6)»",
  "«B1»Item«RIGHT(30)»Qty«RIGHT(40)»Price«RIGHT(52)»Total«B0»",
  "«LW(0.5)»«L1»«MR(520,0)»«L0»",
  "Web Development«RIGHT(30)»40«RIGHT(40)»150.00«RIGHT(52)»6,000.00",
  "Design Services«RIGHT(30)»20«RIGHT(40)»125.00«RIGHT(52)»2,500.00",
  "Hosting (Annual)«RIGHT(30)»1«RIGHT(40)»500.00«RIGHT(52)»500.00",
  "",
  "«RIGHT(44)»«SETFONT12»«BOLDON»Total: 9,000.00«BOLDOFF»",
  "«PRINTEND»"]

/-- Headings and paragraphs in several families and sizes. -/
def report : String := ofLines [
  "«PRINTINIT»«FONTNAME(helvetica)»«SETFONT(size=14)»«B1»Quarterly Report«B0»",
  "«SF(10)»«I1»Prepared by the operations team«I0»",
  "",
  "«FONTNAME(times)»Revenue grew in every region this quarter.",
  "«LMARGIN(2)»«printstring(line=Indented paragraph set with a wider margin.)»",
  "«LMARGIN»Back at the default margin.",
  "«SETCOLOR(0.6,0,0)»Figures in red are provisional.«SETCOLOR(0,0,0)»",
  "«PRINTEND»"]

def threeDigits (n : Nat) : String :=
  String.ofList [Nat.digitChar (n / 100), Nat.digitChar (n / 10 % 10), Nat.digitChar (n % 10)]

def multiPage : String :=
  ofLines (["«PRINTINIT»«BOLDON»Line listing«BOLDOFF»"]
    ++ (List.range' 1 150).map (fun n ↦ "Line " ++ threeDigits n ++ " of the listing")
    ++ ["«NEWPAGE»Appendix on its own page", "«PRINTEND»"])

def layout : String := ofLines [
  "«MA(2,3)»«BOXS»«MR(200,0)»Top right of the first box«MR(0,40)»«BOXE»",
  "«MA(2,6)»«RBOXS(r)»«MR(300,60)»«RBOXE(r)»",
  "«MA(2,10)»«LINES(rule)»«MA(19,10)»«LINEE(rule)»",
  "«MA(y=12)»Same column, lower down",
  "«UP(1)»One line up«DOWN(2,12)»Two 12pt lines down"]

def minimal : String := ofLines ["Hello"]

def named? (name : String) : Option String :=
  [("invoice", invoice), ("report", report), ("multi_page", multiPage), ("layout", layout),
   ("minimal", minimal)].lookup name

end ReportPress.Sample
