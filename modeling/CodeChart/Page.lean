import CodeChart.Text.Raw

/-! The page that shows a chart: a fixed frame around a title and the text of the chart, which a
browser reads from a text area and draws. Both are put into the frame as they are. -/
namespace CodeChart.Page

def openingLines : List String := [
  "<!DOCTYPE html>",
  "<html lang=\"en\">",
  "    <head>",
  "        <meta charset=\"utf-8\">",
  "        <title>"]

def middleLines : List String := [
  "</title>",
  "        <style type=\"text/css\">",
  "          .end-element \x7b fill : #FFCCFF; \x7d",
  "        </style>",
  "        <script src=\"https://cdnjs.cloudflare.com/ajax/libs/raphael/2.3.0/raphael.min." ++
    "js\"></script>",
  "        <script src=\"https://cdnjs.cloudflare.com/ajax/libs/flowchart/1.17.1/flowchart." ++
    "min.js\"></script>",
  "        <script src=\"https://cdnjs.cloudflare.com/ajax/libs/bootstrap/5.3.1/js/bootstrap." ++
    "bundle.min.js\"></script>",
  "        <!-- <script src=\"../release/flowchart.min.js\"></script> -->",
  "        <script>",
  "",
  "            window.onload = function () \x7b",
  "                var btn = document.getElementById(\"run\"),",
  "                    cd = document.getElementById(\"code\"),",
  "                    chart;",
  "                    ",
  "                (btn.onclick = function () \x7b",
  "                    var code = cd.value;",
  "",
  "                    if (chart) \x7b",
  "                      chart.clean();",
  "                    \x7d",
  "",
  "                    chart = flowchart.parse(code);",
  "                    chart.drawSVG('canvas', \x7b",
  "                      'x': 0,",
  "                      'y': 0,",
  "                      'line-width': 3,",
  "                      //'maxWidth': 15,//ensures the flowcharts fits within a certain width",
  "                      'line-length': 50,",
  "                      'text-margin': 10,",
  "                      'font-size': 14,",
  "                      'font': 'normal',",
  "                      'font-family': 'Helvetica',",
  "                      'font-weight': 'normal',",
  "                      'font-color': 'black',",
  "                      'line-color': 'black',",
  "                      'element-color': 'black',",
  "                      'fill': 'white',",
  "                      'yes-text': 'yes',",
  "                      'no-text': 'no',",
  "                      'arrow-end': 'block',",
  "                      'scale': 1,",
  "                      'symbols': \x7b",
  "                        'start': \x7b",
  "                          'font-size': 14,",
  "                          'font-color': 'yellow',",
  "                          'element-color': 'blue',",
  "                          'fill': 'green',",
  "                          'class': 'start-element'",
  "                        \x7d,",
  "                        'inputoutput': \x7b",
  "                          'font-color': 'black',",
  "                          'element-color': 'black',",
  "                          'fill': 'bisque'",
  "                        \x7d,",
  "                        'operation': \x7b",
  "                          'font-color': 'black',",
  "                          'element-color': 'black',",
  "                          'fill': 'linen'",
  "                        \x7d,",
  "                        'subroutine': \x7b",
  "                          'font-color': 'black',",
  "                          'element-color': 'blue',",
  "                          'fill': 'lightgreen'",
  "                        \x7d,",
  "                        'condition': \x7b",
  "                          'font-color': 'red',",
  "                          'element-color': 'black',",
  "                          'fill': 'yellow'",
  "                        \x7d,",
  "                        'end':\x7b",
  "                          'font-size': 20,",
  "                          'class': 'end-element'",
  "                        \x7d",
  "                      \x7d,",
  "                      'flowstate' : \x7b",
  "                        //'past' : \x7b 'fill' : '#CCCCCC', 'font-size' : 12\x7d,",
  "                        //'current' : \x7b'fill' : 'yellow', 'font-color' : 'red', " ++
    "'font-weight' : 'bold'\x7d,",
  "                        //'future' : \x7b 'fill' : '#FFFF99'\x7d,",
  "                        'request' : \x7b 'fill' : 'blue'\x7d,",
  "                        'invalid': \x7b'fill' : '#444444'\x7d,",
  "                        'approved' : \x7b 'fill' : '#58C4A3', 'font-size' : 12, 'yes-text' " ++
    ": 'APPROVED', 'no-text' : 'n/a' \x7d,",
  "                        'rejected' : \x7b 'fill' : '#C45879', 'font-size' : 12, 'yes-text' " ++
    ": 'n/a', 'no-text' : 'REJECTED' \x7d",
  "                      \x7d",
  "                    \x7d);",
  "                    //create base64 encoding of SVG to generate download link for " ++
    "title(without html or htm).SVG",
  "                    var currentCanvasDIV = document.getElementById('canvas')",
  "                    var currentDrawSVG = currentCanvasDIV.innerHTML.replaceAll('ë','e');",
  "",
  "                    const OUTsvgBASE64 = btoa(currentDrawSVG)",
  "                    doctitle = document.title.replace('.html','');",
  "                    doctitle = doctitle.replace('.htm','');",
  "",
  "",
  "                    var currentCanvasDIV = document.getElementById('canvas')",
  "                    var currentDrawSVG = currentCanvasDIV.innerHTML.replaceAll('ë','e');",
  "                    svgSource = currentDrawSVG",
  "                    svgXML = currentDrawSVG;",
  "                    // Use SVG Height and Width from the SVG XML to set canvas size",
  "                    svgXMLsubstringHeight = svgXML.substring(svgXML.indexOf('height='), " ++
    "svgXML.indexOf('version='));",
  "                    svgXMLsubstringWidth = svgXML.substring(svgXML.indexOf('width='), " ++
    "svgXML.indexOf('xmlns='));",
  "                    HeightValue = svgXMLsubstringHeight.substring(svgXMLsubstringHeight." ++
    "indexOf('\"')+1,svgXMLsubstringHeight.lastIndexOf('\"'));",
  "                    WidthValue = svgXMLsubstringWidth.substring(svgXMLsubstringWidth." ++
    "indexOf('\"')+1,svgXMLsubstringWidth.lastIndexOf('\"'));",
  "                    HeightValueInt = Math.round(HeightValue)",
  "                    WidthValueInt = Math.round(WidthValue)",
  "                    // setup input for base64SvgToBase64Png",
  "                    let svgSrc = \"data:image/svg+xml;base64,\"+OUTsvgBASE64;",
  "                    var pngBase",
  "                    imageUtil.base64SvgToBase64Png(svgSrc, WidthValueInt, " ++
    "HeightValueInt).then(pngSrc => \x7b",
  "                    pngBase = pngSrc",
  "                    // output download link for base64 PNG converted on download from base64",
  "                    var pngOutHtml = `<a href=\"$\x7bpngBase\x7d\" " ++
    "download=\"$\x7bdoctitle\x7d.png\">PNG - Click here to download current rendered flowchart " ++
    "as $\x7bdoctitle\x7d.png</a>`",
  "                    document.getElementById(\"pngbase64\").innerHTML=pngOutHtml;",
  "                    \x7d);    ",
  "                    // output download link for base64 SVG converted on download from base64",
  "                    var svgOutHtml = `<a href=\"data:image/svg+xml;base64," ++
    "$\x7bOUTsvgBASE64\x7d\" download=$\x7bdoctitle\x7d.svg>SVG - Click here to download " ++
    "current rendered flowchart as $\x7bdoctitle\x7d.svg</a> `",
  "                        document.getElementById(\"svgbase64\").innerHTML=svgOutHtml;",
  "                    \x7d)();",
  "",
  "                            \x7d;",
  "                 ",
  "",
  "// derived from https://stackoverflow.com/a/64800570",
  "// we need to use web browser canvas to generate a image. In this case png",
  "let imageUtil = \x7b\x7d;",
  "/**",
  " * converts a base64 encoded data url SVG image to a PNG image",
  " * @param originalBase64 data url of svg image",
  " * @param width target width in pixel of PNG image",
  " * @param secondTry used internally to prevent endless recursion",
  " * @return \x7bPromise<unknown>\x7d resolves to png data url of the image",
  " */",
  "imageUtil.base64SvgToBase64Png = function (originalBase64, width, height, secondTry) \x7b",
  "    return new Promise(resolve => \x7b",
  "        let img = document.createElement('img');",
  "        img.onload = function () \x7b",
  "            if (!secondTry && (img.naturalWidth === 0 || img.naturalHeight === 0)) \x7b",
  "                let svgDoc = base64ToSvgDocument(originalBase64);",
  "                let fixedDoc = fixSvgDocumentFF(svgDoc);",
  "                return imageUtil.base64SvgToBase64Png(svgDocumentToBase64(fixedDoc), " ++
    "width, height, true).then(result => \x7b",
  "                    resolve(result);",
  "                \x7d);",
  "            \x7d",
  "            //document.body.appendChild(img);",
  "            let canvas2 = document.createElement(\"canvas\");",
  "            //document.body.removeChild(img);",
  "            canvas2.width = width;",
  "            canvas2.height = height;",
  "            let ctx = canvas2.getContext(\"2d\");",
  "            ctx.drawImage(img, 0, 0, canvas2.width, canvas2.height);",
  "            try \x7b",
  "                let data = canvas2.toDataURL('image/png');",
  "                resolve(data);",
  "            \x7d catch (e) \x7b",
  "                resolve(null);",
  "            \x7d",
  "        \x7d;",
  "        img.src = originalBase64;",
  "    \x7d);",
  "\x7d",
  "",
  "//needed because Firefox doesn't correctly handle SVG with size = 0, see " ++
    "https://bugzilla.mozilla.org/show_bug.cgi?id=700533",
  "function fixSvgDocumentFF(svgDocument) \x7b",
  "    try \x7b",
  "        let widthInt = parseInt(svgDocument.documentElement.width.baseVal.value) || 500;",
  "        let heightInt = parseInt(svgDocument.documentElement.height.baseVal.value) || 500;",
  "        svgDocument.documentElement.width.baseVal.newValueSpecifiedUnits(SVGLength." ++
    "SVG_LENGTHTYPE_PX, widthInt);",
  "        svgDocument.documentElement.height.baseVal.newValueSpecifiedUnits(SVGLength." ++
    "SVG_LENGTHTYPE_PX, heightInt);",
  "        return svgDocument;",
  "    \x7d catch (e) \x7b",
  "        return svgDocument;",
  "    \x7d",
  "\x7d",
  "",
  "function svgDocumentToBase64(svgDocument) \x7b",
  "    try \x7b",
  "        let base64EncodedSVG = btoa(new XMLSerializer().serializeToString(svgDocument));",
  "        return 'data:image/svg+xml;base64,' + base64EncodedSVG;",
  "    \x7d catch (e) \x7b",
  "        return null;",
  "    \x7d",
  "\x7d",
  "",
  "function base64ToSvgDocument(base64) \x7b",
  "    let svg = atob(base64.substring(base64.indexOf('base64,') + 7));",
  "    svg = svg.substring(svg.indexOf('<svg'));",
  "    let parser = new DOMParser();",
  "    return parser.parseFromString(svg, \"image/svg+xml\");",
  "\x7d ",
  "        </script>",
  "",
  "        <script>",
  "            function HelpText() \x7b",
  "              var x = document.getElementById(\"HelpTextBlock\");",
  "              if (x.style.display === \"none\") \x7b",
  "                x.style.display = \"block\";",
  "              \x7d else \x7b",
  "                x.style.display = \"none\";",
  "              \x7d",
  "            \x7d",
  "        </script>",
  "    </head>",
  "    <body>",
  "        <div><textarea id=\"code\" style=\"width: 100%;\" rows=\"11\">"]

def closingLines : List String := [
  "</textarea></div>",
  "        <div><button id=\"run\" type=\"button\">Run</button> <button " ++
    "onclick=\"HelpText()\">Format Help</button></div>",
  "        <div id=\"HelpTextBlock\" style=\"display:none\"><br/>Conditions can also be " ++
    "redirected like cond(yes, bottom) or cond(yes, right)",
  "... and the other symbols too... like sub1(right)<br/>",
  "You can also tweak the <b>diagram.drawSVG('diagram', \x7b\x7d);</b> script in this file " ++
    "for more changes<br/>",
  "This is based on <a href=\"https://github.com/adrai/flowchart.js\">flowchart.js on " ++
    "github</a> and <a href=\"http://flowchart.js.org\">http://flowchart.js.org</a> more " ++
    "documentation can be found over there.",
  "</div><br/><div id=\"svgbase64\"></div>",
  "        <div id=\"pngbase64\"></div>",
  "",
  "        <div id=\"canvas\"></div>",
  "    </body>",
  "</html>"]

def opening : String := "\n".intercalate openingLines

def middle : String := "\n".intercalate middleLines

def closing : String := "\n".intercalate closingLines

/-- The page with a title and a chart. -/
def text (title chart : String) : String :=
  opening ++ title ++ middle ++ chart ++ closing

open Text (Raw)

/-- The pieces of a page in the order in which they are written. -/
def pieces (title : Raw) (chart : String) : List Raw :=
  [Raw.ofText opening, title, Raw.ofText middle, Raw.ofText chart, Raw.ofText closing]

def baseName (name : Raw) : Raw := name.afterLast (.char '/')

/-- The title of a page: the field, or the file's own name where no field is given. -/
def title (field fileName : Raw) : Raw :=
  if field.isEmpty then baseName fileName else field

end CodeChart.Page
