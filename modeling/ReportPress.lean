import ReportPress.Main
import ReportPress.Report.Sample
import ReportPress.Proofs.Markup.Printing
import ReportPress.Proofs.Markup.Written
import ReportPress.Proofs.Render.Filling
import ReportPress.Proofs.Report.Agreement
import ReportPress.Proofs.Markup.Nesting
import ReportPress.Proofs.Markup.Parameters
import ReportPress.Proofs.Json.Numeral
import ReportPress.Proofs.Json.Strings
import ReportPress.Proofs.Json.Values
import ReportPress.Proofs.Json.Singles
import ReportPress.Proofs.Canvas.DrawLog
import ReportPress.Proofs.Markup.CommandList
import ReportPress.Proofs.Render.HalfDone
import ReportPress.Proofs.Pdf.Faces
import ReportPress.Proofs.Report.Reread
import ReportPress.Proofs.Pdf.GraphicsState
import ReportPress.Proofs.Report.Content
import ReportPress.Proofs.Report.Insertions
import ReportPress.Proofs.Render.Anchors
import ReportPress.Proofs.Render.SavedPlaces
import ReportPress.Proofs.Page.History
import ReportPress.Proofs.Report.Styling
import ReportPress.Proofs.Render.LeftMargin
import ReportPress.Proofs.Markup.Controls
import ReportPress.Proofs.Markup.Defects
import ReportPress.Proofs.Pdf.Encoding
import ReportPress.Proofs.Pdf.Outline
import ReportPress.Proofs.Markup.Joining
import ReportPress.Proofs.Render.Performing
import ReportPress.Proofs.Markup.Shape
import ReportPress.Proofs.Font.History
import ReportPress.Proofs.File.Search
import ReportPress.Proofs.Text.Scan
import ReportPress.Proofs.CommandLine.Order
import ReportPress.Proofs.Markup.Arguments
